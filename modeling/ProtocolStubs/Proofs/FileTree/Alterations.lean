import ProtocolStubs.FileTree.Access
import ProtocolStubs.Proofs.FileTree.Contents
import ProtocolStubs.Proofs.FileTree.Standing

set_option autoImplicit false

namespace ProtocolStubs.FileTree

-- Outside of a region a tree stays as it is, but that directories are made on the way somewhere.
def Alters (inside way : Location → Prop) (t after : FileTree) : Prop :=
  ∀ spot, inside spot ∨ after.node? spot = t.node? spot ∨
    (way spot ∧ t.node? spot = none ∧ after.node? spot = some .directory)

section Alters

variable (inside way : Location → Prop) (t : FileTree)

theorem alters_self : Alters inside way t t := fun _ => .inr (.inl rfl)

theorem alters_next (middle after : FileTree) (first : Alters inside way t middle)
    (second : Alters inside way middle after) : Alters inside way t after := by
  intro spot
  rcases first spot with within | same | ⟨on, absent, made⟩
  · exact .inl within
  · rw [← same]
    exact second spot
  · rcases second spot with within | same | ⟨_, gone, _⟩
    · exact .inl within
    · exact .inr (.inr ⟨on, absent, same.trans made⟩)
    · rw [made] at gone
      cases gone

theorem alters_wider (inner path : Location → Prop) (after : FileTree) (alters : Alters inner path t after)
    (covers : ∀ spot, inner spot → inside spot) (leads : ∀ spot, path spot → inside spot ∨ way spot) :
    Alters inside way t after := by
  intro spot
  rcases alters spot with within | same | ⟨on, made⟩
  · exact .inl (covers spot within)
  · exact .inr (.inl same)
  · exact (leads spot on).imp_right fun on => .inr ⟨on, made⟩

end Alters

section Nodes

variable (t : FileTree) (place other : Location)

theorem added_node (node : Node) (deep : place ≠ []) :
    (t.add place node).node? other = if other = place then some node else t.node? other := by
  by_cases same : other = place
  · rw [if_pos same, same, node?, if_neg deep]
    exact lookup_append_new _ _ _ (lookup_filtered_out t.nodes (fun spot => spot ≠ place) place (by simp))
  · rw [if_neg same, node?, node?]
    congr 1
    refine (lookup_append_other _ other place node same).trans ?_
    exact lookup_filter t.nodes (fun spot => spot ≠ place) other (by simp [same])

theorem removed_node (deep : place ≠ []) :
    (t.remove place).node? other = if other = place then none else t.node? other := by
  by_cases same : other = place
  · rw [if_pos same, same, node?, if_neg deep]
    exact lookup_filtered_out t.nodes (fun spot => spot ≠ place) place (by simp)
  · rw [if_neg same, node?, node?]
    congr 1
    exact lookup_filter t.nodes (fun spot => spot ≠ place) other (by simp [same])

theorem cleared_node :
    (t.clear place).node? other = if isBelow place other then none else t.node? other := by
  by_cases below : isBelow place other = true
  · have deep : other ≠ [] := by
      rintro rfl
      cases place <;> simp [isBelow] at below
    rw [if_pos below, node?, if_neg deep]
    exact lookup_filtered_out t.nodes (fun spot => !isBelow place spot) other (by simp [below])
  · rw [if_neg below, node?, node?]
    congr 1
    exact lookup_filter t.nodes (fun spot => !isBelow place spot) other (by simp [below])

end Nodes

structure Ready (path : String) (o : Location) (t : FileTree) : Prop where
  closed : t.Closed
  origin : t.origin path = ⟨o, 0⟩

theorem ready_alike (path other : String) (o : Location) (t : FileTree)
    (alike : Path.isAbsolute path = Path.isAbsolute other) (ready : Ready path o t) : Ready other o t :=
  ⟨ready.closed, by
    rw [origin, ← alike]
    exact ready.origin⟩

theorem on_way_origin (t : FileTree) (above path : String) (way : Path.OnWay above path) :
    t.origin above = t.origin path := by
  rw [origin, origin, way.absolute]

section Making

variable (path : String) (o : Location) (t : FileTree)

theorem add_ready (directory : Location) (name : String) (node : Node) (ready : Ready path o t)
    (stands : t.node? directory = some .directory)
    (free : t.node? (directory ++ [name]) ≠ some .directory) :
    Ready path o (t.add (directory ++ [name]) node) := by
  refine ⟨fun spot last there => ?_, ready.origin⟩
  rw [added_node _ _ _ _ (by simp)] at there ⊢
  split
  · rename_i same
    have longer : spot ++ [last] ≠ directory ++ [name] := fun whole => by simp [same] at whole
    rw [if_neg longer, same] at there
    exact absurd (ready.closed _ _ there) free
  · split at there
    · rename_i whole
      rwa [(List.append_inj' whole rfl).1]
    · exact ready.closed spot last there

structure Made (after : FileTree) : Prop where
  ready : Ready path o after
  nodes : Alters (fun _ => False) (· <+: o ++ Path.names path) t after

theorem made_self (ready : Ready path o t) : Made path o t t := ⟨ready, alters_self _ _ t⟩

theorem made_next (middle after : FileTree) (first : Made path o t middle)
    (second : Made path o middle after) : Made path o t after :=
  ⟨second.ready, alters_next _ _ t middle after first.nodes second.nodes⟩

theorem made_keeps (after : FileTree) (made : Made path o t after) (spot : Location)
    (there : t.node? spot ≠ none) : after.node? spot = t.node? spot := by
  rcases made.nodes spot with within | same | ⟨_, absent, _⟩
  · exact within.elim
  · exact same
  · exact absurd absent there

structure Attempted (above : String) (result : Except Fault Unit) (after : FileTree) : Prop where
  made : Made path o t after
  stands : result = .ok () → after.node? (o ++ Path.names above) = some .directory ∧ Walkable above

variable (above : String) (plain : Path.IsPlain path) (way : Path.OnWay above path)

include plain way

theorem make_directory_yields :
    Yields (Made path o t) (Attempted path o t above) (access.makeDirectory above) := by
  intro before made
  change Attempted path o t above (before.makeDirectory above).2 (before.makeDirectory above).1
  have origin := (on_way_origin before above path way).trans made.ready.origin
  rcases before.make_directory_cases above with ⟨fault, same⟩ | ⟨directory, name, placed, absent, put⟩
  · rw [same]
    exact ⟨made, nofun⟩
  · rw [put]
    obtain ⟨whole, stands, walkable⟩ :=
      place_plain before above o (way.plain plain) origin directory name placed
    have added := fun other => added_node before (directory ++ [name]) other .directory (by simp)
    refine ⟨made_next path o t before _ made ⟨?_, fun spot => ?_⟩, fun _ => ⟨?_, walkable⟩⟩
    · exact add_ready path o before directory name .directory made.ready stands
        (by rw [absent]; exact nofun)
    · rw [added]
      split
      · rename_i same
        rw [same, absent, whole]
        exact .inr (.inr ⟨(List.prefix_append_right_inj o).mpr way.names, rfl, rfl⟩)
      · exact .inr (.inl rfl)
    · rw [added, if_pos whole.symm]

theorem settle_yields (fault : Fault) :
    Yields (Made path o t) (Attempted path o t above) (access.settle above fault) := by
  intro before made
  refine ⟨made, fun fine => ?_⟩
  have origin := (on_way_origin before above path way).trans made.ready.origin
  refine directory_plain before above o (way.plain plain) origin ?_
  change (if before.isDirectory above = true then .ok () else .error fault : Except Fault Unit) = .ok ()
    at fine
  by_contra other
  rw [if_neg other] at fine
  cases fine

theorem attempts_made : Attempts (Made path o t) (Attempted path o t) above where
  made := make_directory_yields path o t above plain way
  settled fault := settle_yields path o t above plain way fault
  held _ _ attempted := attempted.made
  failed _ _ made := ⟨made, nofun⟩

omit way in
theorem make_directories_yields (other : String) (named : Path.names other ≠ [])
    (way : Path.OnWay other path) :
    Yields (Made path o t) (Attempted path o t other) (access.makeDirectories other) := by
  have text : other ≠ "" := by
    rintro rfl
    exact named rfl
  rw [FileAccess.makeDirectories, if_neg text]
  refine attempts_with _ _ other _ (List.forall_mem_cons.mpr
    ⟨attempts_made path o t other plain way, fun above member => attempts_made path o t above plain ?_⟩)
  exact Path.on_way_next above other path (Path.ancestors_on_way other above member) way

end Making

theorem below_iff (top spot : Location) : isBelow top spot = true ↔ top <+: spot ∧ spot ≠ top := by
  simp [isBelow]

section Removing

variable (path : String) (o top : Location) (t : FileTree)

structure Emptied (after : FileTree) : Prop where
  ready : Ready path o after
  nodes : Alters (top <+: ·) (fun _ => False) t after
  nothing : ∀ spot, isBelow top spot = true → after.node? spot = none

theorem kept_origin (after : FileTree) (ready : Ready path o t) (apart : ¬top <+: o)
    (here : after.here = t.here ∨ top <+: t.here.firm) : after.origin path = ⟨o, 0⟩ := by
  have origin := ready.origin
  rw [FileTree.origin] at origin ⊢
  split
  · rename_i absolute
    rwa [if_pos absolute] at origin
  · rename_i relative
    rw [if_neg relative] at origin
    rcases here with same | lost
    · rwa [same]
    · rw [origin] at lost
      exact absurd (by simpa [Standpoint.firm] using lost) apart

theorem clear_empties (ready : Ready path o t) (apart : ¬top <+: o) :
    Emptied path o top t (t.clear top) := by
  refine ⟨⟨fun spot last there => ?_, ?_⟩, fun spot => ?_, fun spot below => ?_⟩
  · rw [cleared_node] at there ⊢
    split at there
    · exact absurd rfl there
    · rename_i outside
      have above : ¬isBelow top spot = true := by
        intro below
        obtain ⟨way, _⟩ := (below_iff top spot).mp below
        refine outside ((below_iff top _).mpr ⟨way.trans (List.prefix_append _ _), ?_⟩)
        rintro rfl
        have shorter := way.length_le
        rw [List.length_append, List.length_singleton] at shorter
        omega
      rw [if_neg above]
      exact ready.closed spot last there
  · refine kept_origin path o top t _ ready apart ?_
    by_cases below : isBelow top t.here.firm = true
    · exact .inr ((below_iff _ _).mp below).1
    · exact .inl (by rw [clear, if_neg below])
  · by_cases below : isBelow top spot = true
    · exact .inl ((below_iff top spot).mp below).1
    · exact .inr (.inl (by rw [cleared_node, if_neg below]))
  · rw [cleared_node, if_pos below]

theorem remove_empties (after : FileTree) (emptied : Emptied path o top t after) (apart : ¬top <+: o)
    (deep : top ≠ []) : Emptied path o top t (after.remove top) := by
  have removed := fun spot => removed_node after top spot deep
  refine ⟨⟨fun spot last there => ?_, ?_⟩, fun spot => ?_, fun spot below => ?_⟩
  · rw [removed] at there ⊢
    split at there
    · exact absurd rfl there
    · have parent := emptied.ready.closed spot last there
      have other : spot ≠ top := by
        rintro rfl
        exact there (emptied.nothing _ ((below_iff _ _).mpr ⟨List.prefix_append _ _, by simp⟩))
      rwa [if_neg other]
  · refine kept_origin path o top after _ emptied.ready apart ?_
    by_cases inside : top.isPrefixOf after.here.firm = true
    · exact .inr (List.isPrefixOf_iff_prefix.mp inside)
    · exact .inl (by rw [remove, if_neg inside])
  · by_cases same : spot = top
    · exact .inl (same ▸ List.prefix_refl _)
    · rw [removed, if_neg same]
      exact emptied.nodes spot
  · rw [removed, if_neg ((below_iff top spot).mp below).2]
    exact emptied.nothing spot below

-- The directory itself is removed by its path, which may not lead there any more: then it stays, empty.
theorem removal_empties (plain : Path.IsPlain path) (named : Path.names path ≠ [])
    (ready : Ready path o t) (done : (t.removeAll path).2 = .ok ()) :
    Emptied path o (o ++ Path.names path) t (t.removeAll path).1 := by
  have apart : ¬o ++ Path.names path <+: o := fun back => by
    have shorter := back.length_le
    rw [List.length_append] at shorter
    exact named (List.length_eq_zero_iff.mp (by omega))
  have cleared := clear_empties path o _ t ready apart
  rw [removeAll] at done ⊢
  cases found : t.find path with
  | error fault =>
    rw [found] at done
    cases done
  | ok s =>
    obtain ⟨rfl, _, _⟩ := find_plain t path o plain ready.origin s found
    rw [found] at done
    by_cases stands : t.isDirectoryAt (o ++ Path.names path) = true
    · simp only [ne_eq, not_true_eq_false, if_false, stands, if_true] at done ⊢
      rw [removeEmpty] at done ⊢
      cases placed : (t.clear (o ++ Path.names path)).place path with
      | error fault =>
        rw [placed] at done
        cases fault with
        | missing => exact cleared
        | other reason => cases done
      | ok place =>
        obtain ⟨directory, _ | name⟩ := place
        · rw [placed] at done
          cases done
        · obtain ⟨whole, _, _⟩ :=
            place_plain _ path o plain cleared.ready.origin directory name placed
          have deep : o ++ Path.names path ≠ [] := by simp [named]
          change Emptied path o _ t ((t.clear _).remove (directory ++ [name]))
          rw [whole]
          exact remove_empties path o _ t _ cleared apart deep
    · simp [stands] at done

end Removing

theorem write_adds (path : String) (o : Location) (contents : ByteArray) (t : FileTree)
    (plain : Path.IsPlain path) (ready : Ready path o t) (done : (t.write path contents).2 = .ok ()) :
    Ready path o (t.write path contents).1 ∧ ∀ spot, (t.write path contents).1.node? spot =
      if spot = o ++ Path.names path then some (.file contents) else t.node? spot := by
  rcases t.write_cases path contents with ⟨fault, refused⟩ | ⟨directory, name, _, placed, free, put⟩
  · rw [refused] at done
    cases done
  · obtain ⟨whole, stands, _⟩ := place_plain t path o plain ready.origin directory name placed
    rw [put, ← whole]
    exact ⟨add_ready path o t directory name _ ready stands free, fun spot => added_node t _ spot _ (by simp)⟩

end ProtocolStubs.FileTree
