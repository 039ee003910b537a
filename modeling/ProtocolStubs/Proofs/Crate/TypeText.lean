import ProtocolStubs.Crate.TypeExpr
import ProtocolStubs.Proofs.Crate.Identifier
import ProtocolStubs.Proofs.Layout.Blocks

set_option autoImplicit false

namespace ProtocolStubs.Crate

open Layout
open Text (OneLine)

abbrev ItemPath := String × String

def itemPath (domain id : String) : ItemPath := (identifier domain, typeName id)

@[simp] theorem item_module (domain id : String) : (itemPath domain id).1 = identifier domain := by
  rw [itemPath]

-- The text names the type at a path, in the file of a module.
def Names (module text : String) (path : ItemPath) : Prop :=
  text = path.1 ++ "::types::" ++ path.2 ∨ path.1 = module ∧ text = "types::" ++ path.2

theorem first_sign {α : Type} (sign : α → Prop) (front other back rest : List α) (c d : α)
    (left : ∀ x ∈ front, ¬sign x) (right : ∀ x ∈ other, ¬sign x) (first : sign c) (second : sign d)
    (same : front ++ c :: back = other ++ d :: rest) : front = other ∧ c = d ∧ back = rest := by
  induction front generalizing other with
  | nil =>
    cases other with
    | nil => exact ⟨rfl, List.cons.inj same⟩
    | cons x other => exact absurd ((List.cons.inj same).1 ▸ first) (right x List.mem_cons_self)
  | cons x front ih =>
    cases other with
    | nil => exact absurd ((List.cons.inj same).1 ▸ second) (left x List.mem_cons_self)
    | cons y other =>
      obtain ⟨rfl, tails⟩ := List.cons.inj same
      obtain ⟨rfl, signs⟩ := ih other (fun x member => left x (List.mem_cons_of_mem _ member))
        (fun x member => right x (List.mem_cons_of_mem _ member)) tails
      exact ⟨rfl, signs⟩

theorem colon_cut (a b s t : String) (left : ':' ∉ a.toList) (right : ':' ∉ b.toList)
    (same : a ++ "::" ++ s = b ++ "::" ++ t) : a = b ∧ s = t := by
  have lists : a.toList ++ ':' :: ':' :: s.toList = b.toList ++ ':' :: ':' :: t.toList := by
    simpa using congrArg String.toList same
  obtain ⟨front, _, back⟩ := first_sign (· = ':') _ _ _ _ _ _ (fun _ member is => left (is ▸ member))
    (fun _ member is => right (is ▸ member)) rfl rfl lists
  exact ⟨String.toList_injective front, String.toList_injective (List.cons.inj back).2⟩

theorem names_front (module text domain id : String) (names : Names module text (itemPath domain id)) :
    ∃ front rest, text.toList = front ++ ':' :: rest ∧ ∀ c ∈ front, ¬(c = ':' ∨ c = '<') := by
  rcases names with rfl | ⟨_, rfl⟩
  · refine ⟨(identifier domain).toList, ":types::".toList ++ (typeName id).toList, by simp [itemPath], ?_⟩
    intro c member sign
    obtain ⟨_, colon, angle⟩ := identifier_in_word domain c member
    exact sign.elim colon angle
  · exact ⟨"types".toList, ":".toList ++ (typeName id).toList, by simp [itemPath], by simp⟩

theorem spellings_apart (domain id name : String) :
    identifier domain ++ "::types::" ++ typeName id ≠ "types::" ++ typeName name := by
  intro same
  obtain ⟨_, back⟩ := colon_cut (identifier domain) "types" ("types::" ++ typeName id) (typeName name)
    (identifier_colon domain) (by decide)
    (String.toList_injective (by simpa using congrArg String.toList same))
  refine type_name_front name ?_
  rw [← back, String.toList_append]
  exact List.prefix_append _ _

theorem names_unique (module text domain id other name : String)
    (first : Names module text (itemPath domain id)) (second : Names module text (itemPath other name)) :
    itemPath domain id = itemPath other name := by
  simp only [Names, itemPath] at first second ⊢
  rcases first with first | ⟨here, first⟩ <;> rcases second with second | ⟨there, second⟩ <;>
    rw [first] at second
  · obtain ⟨front, back⟩ := colon_cut (identifier domain) (identifier other) ("types::" ++ typeName id)
      ("types::" ++ typeName name) (identifier_colon domain) (identifier_colon other)
      (String.toList_injective (by simpa using congrArg String.toList second))
    rw [front, (String.append_right_inj "types::").mp back]
  · exact absurd second (spellings_apart domain id name)
  · exact absurd second.symm (spellings_apart other name id)
  · rw [here, there, (String.append_right_inj "types::").mp second]

theorem wrapped_unnamed (module lead inner domain id : String)
    (free : ∀ c ∈ lead.toList, ¬(c = ':' ∨ c = '<')) :
    ¬Names module (lead ++ "<" ++ inner) (itemPath domain id) := by
  intro names
  obtain ⟨front, rest, same, before⟩ := names_front module _ domain id names
  have lists : lead.toList ++ '<' :: inner.toList = front ++ ':' :: rest := by simpa using same
  obtain ⟨_, angle, _⟩ := first_sign _ _ _ _ _ _ _ free before (.inr rfl) (.inl rfl) lists
  exact absurd angle (by decide)

namespace TypeExpr

-- The types that an expression names, each with the module of another domain if it is not the own one.
def paths : TypeExpr → List (Option String × String)
  | .path module name => [(module, name)]
  | .boxed inner => inner.paths
  | .vector item => item.paths
  | .value => []
  | .string => []
  | .float => []
  | .bool => []

inductive Wrapped (inner : String) : String → Prop where
  | bare : Wrapped inner inner
  | boxed {text : String} (within : Wrapped inner text) : Wrapped inner ("Box<" ++ text ++ ">")
  | vector {text : String} (within : Wrapped inner text) : Wrapped inner ("Vec<" ++ text ++ ">")

def pathSpelling : Option String × String → String
  | (none, name) => "types::" ++ name
  | (some module, name) => module ++ "::types::" ++ name

-- What is written for an expression: the one path that it has, or a built-in type.
def Spelled (runtime : String) (e : TypeExpr) : Prop :=
  (∃ path, e.paths = [path] ∧ Wrapped (pathSpelling path) (e.text runtime)) ∨
    e.paths = [] ∧ ∃ builtin ∈ [valuePath runtime, "String", "f64", "bool"],
      Wrapped builtin (e.text runtime)

theorem text_spelled (runtime : String) (e : TypeExpr) : e.Spelled runtime := by
  induction e with
  | value => exact .inr ⟨rfl, valuePath runtime, by simp, .bare⟩
  | string => exact .inr ⟨rfl, "String", by simp, .bare⟩
  | float => exact .inr ⟨rfl, "f64", by simp, .bare⟩
  | bool => exact .inr ⟨rfl, "bool", by simp, .bare⟩
  | path module name =>
    refine .inl ⟨_, rfl, ?_⟩
    cases module <;> exact .bare
  | boxed inner ih =>
    rcases ih with ⟨path, only, within⟩ | ⟨none_, builtin, listed, within⟩
    · exact .inl ⟨path, only, .boxed within⟩
    · exact .inr ⟨none_, builtin, listed, .boxed within⟩
  | vector item ih =>
    rcases ih with ⟨path, only, within⟩ | ⟨none_, builtin, listed, within⟩
    · exact .inl ⟨path, only, .vector within⟩
    · exact .inr ⟨none_, builtin, listed, .vector within⟩

def pathOf (domain : String) (ref : TypeRef) : Option String × String :=
  (if ref.domain = domain then none else some (identifier ref.domain), typeName ref.name)

theorem primitive_paths (p : Primitive) : (ofPrimitive p).paths = [] := by cases p <;> rfl

theorem reference_expr (domain : String) (ref : TypeRef) :
    ofRef domain ref = .path (pathOf domain ref).1 (pathOf domain ref).2 := by
  by_cases own : ref.domain = domain <;> simp [ofRef, pathOf, TypeRef.isLocal, own]

theorem reference_paths (domain : String) (ref : TypeRef) :
    (ofRef domain ref).paths = [pathOf domain ref] := by
  rw [reference_expr, paths]

-- An expression that renders a definition, as an alias or as a field.
def Renders (index : TypeIndex) (domain : String) (d : Definition) (e : TypeExpr) : Prop :=
  e = .ofDefinition domain d ∨ e = .ofField index domain d

theorem rendered_shape (index : TypeIndex) (domain : String) (d : Definition) (e : TypeExpr)
    (renders : Renders index domain d e) : e = .ofShape domain d.shape ∨
      ∃ raw, d.shape = .reference raw ∧ e = .boxed (ofRef domain (TypeRef.parse raw domain)) := by
  rcases renders with rfl | rfl
  · exact .inl rfl
  · rw [ofField]
    cases shape : d.shape with
    | reference raw =>
      dsimp only
      split
      · exact .inr ⟨raw, rfl, rfl⟩
      · exact .inl rfl
    | _ => exact .inl rfl

theorem rendered_paths (index : TypeIndex) (domain : String) (d : Definition) (e : TypeExpr)
    (renders : Renders index domain d e) :
    e.paths = ((d.target? domain).map (pathOf domain)).toList := by
  rw [Definition.target?]
  rcases rendered_shape index domain d e renders with rfl | ⟨raw, shape, rfl⟩
  · cases d.shape with
    | reference raw => exact reference_paths domain (TypeRef.parse raw domain)
    | arrayOfReference raw => exact reference_paths domain (TypeRef.parse raw domain)
    | arrayOf item => exact primitive_paths item
    | enumeration values => rfl
    | primitive p => exact primitive_paths p
    | unknown => rfl
  · rw [shape]
    exact reference_paths domain (TypeRef.parse raw domain)

def pathText (domain : String) (ref : TypeRef) : String :=
  (if ref.domain = domain then "" else identifier ref.domain ++ "::") ++ "types::" ++ typeName ref.name

theorem reference_text (domain runtime : String) (ref : TypeRef) :
    (ofRef domain ref).text runtime = pathText domain ref := by
  rw [reference_expr, pathOf, pathText]
  by_cases own : ref.domain = domain
  · simp only [own, if_true]
    exact congrArg (· ++ typeName ref.name) String.empty_append.symm
  · simp only [own, if_false]
    exact String.toList_injective (by simp [text])

theorem rendered_text (index : TypeIndex) (domain runtime : String) (d : Definition) (e : TypeExpr)
    (ref : TypeRef) (renders : Renders index domain d e) (target : d.target? domain = some ref) :
    ∃ wrap ∈ [("", ""), ("Box<", ">"), ("Vec<", ">")],
      e.text runtime = wrap.1 ++ pathText domain ref ++ wrap.2 := by
  rw [Definition.target?] at target
  rcases rendered_shape index domain d e renders with rfl | ⟨raw, shape, rfl⟩
  · cases shape : d.shape <;> rw [shape] at target <;> cases target
    · exact ⟨("", ""), by simp, by simp [ofShape, reference_text]⟩
    · exact ⟨("Vec<", ">"), by simp, by simp [ofShape, text, reference_text]⟩
  · rw [shape] at target
    cases target
    exact ⟨("Box<", ">"), by simp, by simp [text, reference_text]⟩

theorem reference_names (domain runtime : String) (ref : TypeRef) :
    Names (identifier domain) ((ofRef domain ref).text runtime) (itemPath ref.domain ref.name) := by
  rw [reference_text, pathText]
  split
  · rename_i own
    exact .inr ⟨by rw [item_module, own], by simp [itemPath]⟩
  · exact .inl (String.toList_injective (by simp [itemPath]))

theorem shape_named (domain runtime other name : String) (shape : Shape)
    (named : Names (identifier domain) ((ofShape domain shape).text runtime) (itemPath other name))
    (static : (ofShape domain shape).text runtime ≠ valuePath runtime) : ∃ raw,
      shape = .reference raw ∧ itemPath other name =
        itemPath (TypeRef.parse raw domain).domain (TypeRef.parse raw domain).name := by
  have plain : ∀ text : String, ':' ∉ text.toList →
      ¬Names (identifier domain) text (itemPath other name) := by
    intro text free names
    obtain ⟨front, rest, same, _⟩ := names_front _ text other name names
    exact free (by simp [same])
  have vector : ∀ item : TypeExpr,
      ¬Names (identifier domain) ((TypeExpr.vector item).text runtime) (itemPath other name) := by
    intro item
    have spelled : (TypeExpr.vector item).text runtime = "Vec" ++ "<" ++ (item.text runtime ++ ">") :=
      String.toList_injective (by simp [text])
    rw [spelled]
    exact wrapped_unnamed _ "Vec" _ other name (by simp)
  cases shape with
  | reference raw => exact ⟨raw, rfl, names_unique _ _ other name _ _ named (reference_names domain runtime _)⟩
  | arrayOf item => exact absurd named (vector _)
  | arrayOfReference raw => exact absurd named (vector _)
  | enumeration values => exact absurd named (plain "String" (by decide))
  | primitive p =>
    cases p with
    | object => exact absurd rfl static
    | array => exact absurd named (vector _)
    | string => exact absurd named (plain "String" (by decide))
    | number => exact absurd named (plain "f64" (by decide))
    | boolean => exact absurd named (plain "bool" (by decide))
    | any => exact absurd rfl static
  | unknown => exact absurd rfl static

theorem path_line (domain : String) (ref : TypeRef) (line : OneLine ref.name) :
    OneLine (pathText domain ref) := by
  rw [pathText, one_line_append, one_line_append]
  refine ⟨⟨?_, by decide⟩, type_name_line ref.name line⟩
  split
  · decide
  · exact (one_line_append _ _).mpr ⟨identifier_line ref.domain, by decide⟩

end TypeExpr

end ProtocolStubs.Crate
