import ProtocolStubs.Proofs.FileTree.Joining

set_option autoImplicit false

namespace ProtocolStubs.Path

def names (path : String) : List String := (parts path).filter isName

theorem names_some (path : String) : names path ≠ [] ↔ hasName path = true := by
  rw [hasName, List.any_eq_true, names, ne_eq, List.filter_eq_nil_iff]
  simp

def IsPlain (path : String) : Prop := ".." ∉ parts path

instance (path : String) : Decidable (IsPlain path) := inferInstanceAs (Decidable (".." ∉ parts path))

theorem parts_single (part : String) (free : '/' ∉ part.toList) : parts part = [part] := by
  rw [parts, Text.split, Text.split_from_free '/' [] part.toList free]
  simp

theorem parts_joined (texts : List String) (some_ : texts ≠ [])
    (free : ∀ part ∈ texts, '/' ∉ part.toList) : parts (Text.joinWith "/" texts) = texts := by
  induction texts with
  | nil => exact absurd rfl some_
  | cons first rest ih =>
    obtain ⟨here, later⟩ := List.forall_mem_cons.mp free
    cases rest with
    | nil =>
      have single : Text.joinWith "/" [first] = first := by simp [Text.joinWith]
      rw [single, parts_single first here]
    | cons second rest =>
      have cut : Text.joinWith "/" (first :: second :: rest) =
          String.ofList (first.toList ++ '/' :: (Text.joinWith "/" (second :: rest)).toList) := by
        simp [Text.joinWith, List.intercalate_cons_cons]
      rw [cut, cut_parts, String.ofList_toList, String.ofList_toList, parts_single first here,
        ih (List.cons_ne_nil _ _) later]
      rfl

theorem split_from_begun (held rest : List Char) (later : List String) (begun : held ≠ []) :
    Text.splitFrom '/' held rest ≠ "" :: later := by
  have inked : String.ofList held.reverse ≠ "" := by
    rw [ne_eq, ← String.toList_eq_nil_iff, String.toList_ofList, List.reverse_eq_nil_iff]
    exact begun
  induction rest generalizing held with
  | nil =>
    rw [Text.splitFrom]
    exact fun same => inked (List.cons.inj same).1
  | cons c rest ih =>
    rw [Text.splitFrom]
    split
    · exact fun same => inked (List.cons.inj same).1
    · exact ih (c :: held) (List.cons_ne_nil _ _) (by simp)

theorem absolute_parts (path : String) :
    isAbsolute path = true ↔ ∃ next rest, parts path = "" :: next :: rest := by
  rw [isAbsolute, Text.startsWith, parts, Text.split]
  cases path.toList with
  | nil => simp [Text.splitFrom]
  | cons c rest =>
    by_cases slash : c = '/'
    · subst slash
      obtain ⟨next, further, there⟩ := List.exists_cons_of_ne_nil (Text.splitFrom_ne_nil '/' [] rest)
      simp [Text.splitFrom, there]
    · have begun := fun next further => split_from_begun [c] rest (next :: further) (List.cons_ne_nil _ _)
      simp [Text.splitFrom, slash, begun]

structure OnWay (above path : String) : Prop where
  plain : IsPlain path → IsPlain above
  names : names above <+: names path
  absolute : isAbsolute above = isAbsolute path

theorem on_way_self (path : String) : OnWay path path := ⟨id, List.prefix_refl _, rfl⟩

theorem on_way_next (first second path : String) (way : OnWay first second) (further : OnWay second path) :
    OnWay first path :=
  ⟨fun plain => way.plain (further.plain plain), way.names.trans further.names,
    way.absolute.trans further.absolute⟩

-- The parts of an absolute path in front have to reach beyond its empty part.
theorem on_way_of_parts (above path : String) (starts : parts above <+: parts path)
    (further : parts above ≠ [""]) : OnWay above path := by
  refine ⟨fun plain inside => plain (starts.subset inside), starts.filter isName, ?_⟩
  obtain ⟨rest, whole⟩ := starts
  rw [Bool.eq_iff_iff, absolute_parts, absolute_parts, ← whole]
  cases own : parts above with
  | nil => exact absurd own (Text.splitFrom_ne_nil '/' [] above.toList)
  | cons first later =>
    cases later with
    | nil =>
      have inked : first ≠ "" := fun silent => further (own.trans (by rw [silent]))
      simp [inked]
    | cons second later => simp

theorem significant_suffix (reversed : List String) : significant reversed <:+ reversed := by
  induction reversed using significant.induct with
  | case1 => exact List.suffix_refl _
  | case2 first => exact List.suffix_refl _
  | case3 last next rest silent ih =>
    rw [significant, if_pos silent]
    exact ih.trans (List.suffix_cons _ _)
  | case4 last next rest loud => simp [significant, loud]

theorem significant_names (reversed : List String) :
    (significant reversed).filter isName = reversed.filter isName := by
  induction reversed using significant.induct with
  | case1 => rfl
  | case2 first => rfl
  | case3 last next rest silent ih =>
    have unnamed : isName last = false := by
      rcases silent with rfl | rfl <;> rfl
    rw [significant, if_pos silent, ih]
    exact (List.filter_cons_of_neg (by simp [unnamed])).symm
  | case4 last next rest loud => rw [significant, if_neg loud]

theorem significant_named (reversed : List String) :
    (significant reversed).any isName = reversed.any isName := by
  have same := congrArg (fun kept => kept.any isName) (significant_names reversed)
  simpa [List.any_filter] using same

theorem of_reversed_parts (reversed : List String) (some_ : reversed ≠ []) (rooted : reversed ≠ [""])
    (free : ∀ part ∈ reversed, '/' ∉ part.toList) : parts (ofReversed reversed) = reversed.reverse := by
  have text : ofReversed reversed = Text.joinWith "/" reversed.reverse := by
    unfold ofReversed
    split
    · exact absurd rfl rooted
    · rfl
  rw [text, parts_joined _ (by simpa using some_) fun part member => free part (List.mem_reverse.mp member)]

theorem named_reversed_parts (reversed : List String) (named : reversed.any isName = true)
    (free : ∀ part ∈ reversed, '/' ∉ part.toList) : parts (ofReversed reversed) = reversed.reverse := by
  refine of_reversed_parts reversed ?_ ?_ free
  · rintro rfl
    cases named
  · rintro rfl
    cases named

theorem ancestors_of_parts (reversed : List String) (free : ∀ part ∈ reversed, '/' ∉ part.toList) :
    ∀ above ∈ ancestorsOf reversed, parts above ≠ [""] ∧ parts above <+: reversed.reverse := by
  induction reversed with
  | nil => exact List.forall_mem_nil _
  | cons last rest ih =>
    obtain ⟨_, freeRest⟩ := List.forall_mem_cons.mp free
    have further : ∀ above ∈ ancestorsOf rest,
        parts above ≠ [""] ∧ parts above <+: (last :: rest).reverse := by
      intro above member
      obtain ⟨deep, starts⟩ := ih freeRest above member
      exact ⟨deep, starts.trans (List.reverse_cons ▸ List.prefix_append _ _)⟩
    rw [ancestorsOf]
    split
    · exact further
    · split
      · exact List.forall_mem_nil _
      · exact List.forall_mem_nil _
      · rename_i some_ rooted
        have ends := significant_suffix rest
        have own := of_reversed_parts (significant rest) some_ rooted fun part member =>
          freeRest part (ends.subset member)
        refine List.forall_mem_cons.mpr ⟨⟨?_, ?_⟩, further⟩
        · rw [own]
          exact fun alone => rooted (by simpa using congrArg List.reverse alone)
        · rw [own, List.reverse_cons]
          exact (List.reverse_prefix.mpr ends).trans (List.prefix_append _ _)

theorem parts_free (path part : String) (member : part ∈ (parts path).reverse) : '/' ∉ part.toList :=
  Text.not_mem_of_mem_split '/' path part (List.mem_reverse.mp member)

theorem ancestors_on_way (path above : String) (member : above ∈ ancestors path) : OnWay above path := by
  obtain ⟨further, starts⟩ := ancestors_of_parts _ (parts_free path) above member
  exact on_way_of_parts above path (List.reverse_reverse (parts path) ▸ starts) further

theorem significant_loud (reversed rest : List String) (last next : String)
    (shape : significant reversed = last :: next :: rest) : last ≠ "" ∧ last ≠ "." := by
  induction reversed using significant.induct with
  | case1 => cases shape
  | case2 first => cases shape
  | case3 first second further silent ih =>
    rw [significant, if_pos silent] at shape
    exact ih shape
  | case4 first second further loud =>
    rw [significant, if_neg loud] at shape
    exact (List.cons.inj shape).1 ▸ not_or.mp loud

theorem parent_names (path parent : String) (plain : IsPlain path) (deep : 2 ≤ (names path).length)
    (is : parent? path = some parent) : OnWay parent path ∧ names parent = (names path).dropLast := by
  have kept := significant_names (parts path).reverse
  have ends := significant_suffix (parts path).reverse
  have reversed : names path = ((parts path).reverse.filter isName).reverse := by
    rw [names, List.filter_reverse, List.reverse_reverse]
  rw [parent?] at is
  split at is
  · cases is
  · cases is
  · rename_i last rest _ shape
    obtain rfl := Option.some.inj is
    rw [shape] at kept ends
    rw [← kept] at reversed
    have others : rest.any isName = true := by
      by_contra none_
      have bare : rest.filter isName = [] := by simpa [List.filter_eq_nil_iff] using none_
      rw [reversed, List.length_reverse, List.filter_cons, bare] at deep
      split at deep <;> simp at deep
    have some_ : (significant rest).any isName = true := (significant_named rest).trans others
    have named : isName last = true := by
      cases rest with
      | nil => cases others
      | cons next rest =>
        obtain ⟨inked, dotless⟩ := significant_loud _ rest last next shape
        have down : last ≠ ".." := fun up =>
          plain (List.mem_reverse.mp (ends.subset (up ▸ List.mem_cons_self)))
        simp [isName, inked, dotless, down]
    have suffix := (significant_suffix rest).trans ((List.suffix_cons last rest).trans ends)
    have own : parts (ofReversed (significant rest)) = (significant rest).reverse :=
      named_reversed_parts _ some_ fun part member => parts_free path part (suffix.subset member)
    refine ⟨on_way_of_parts _ path ?_ ?_, ?_⟩
    · rw [own]
      exact List.reverse_reverse (parts path) ▸ List.reverse_prefix.mpr suffix
    · intro alone
      rw [own, List.reverse_eq_iff] at alone
      rw [alone] at some_
      cases some_
    · rw [names, own, List.filter_reverse, significant_names, reversed, List.filter_cons, named]
      simp

theorem join_names (base path : String) (relative : isAbsolute path = false) :
    names (join base path) = names base ++ names path := by
  by_cases based : base = ""
  · subst based
    have same : join "" path = path := by simp [join, relative]
    rw [same]
    rfl
  · obtain ⟨above, ending, silent, whole, joined⟩ := join_parts base path relative based
    have says_nothing : ending.filter isName = [] := by
      rcases silent with rfl | rfl <;> rfl
    rw [names, names, names, joined, whole, List.filter_append, List.filter_append, says_nothing,
      List.append_nil]

theorem join_plain (base path : String) (plain : IsPlain base) (further : IsPlain path) :
    IsPlain (join base path) := by
  cases absolute : isAbsolute path with
  | true => rwa [join, if_pos absolute]
  | false =>
    by_cases based : base = ""
    · subst based
      have same : join "" path = path := by simp [join, absolute]
      rwa [same]
    · obtain ⟨above, ending, _, whole, joined⟩ := join_parts base path absolute based
      intro up
      rw [joined] at up
      rcases List.mem_append.mp up with before | after
      · exact plain (whole ▸ List.mem_append_left _ before)
      · exact further after

end ProtocolStubs.Path
