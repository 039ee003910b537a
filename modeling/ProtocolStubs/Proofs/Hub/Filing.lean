import ProtocolStubs.Session.Hub

set_option autoImplicit false

namespace ProtocolStubs.Hub

variable {κ : Type}

abbrev Topics (κ : Type) := List (String × List (Entry κ))

def under (topics : Topics κ) (event : String) : List (Entry κ) := (topics.lookup event).getD []

theorem entries_under (h : Hub κ) (event : String) : h.entries event = under h.topics event := rfl

theorem under_cons (name event : String) (entries : List (Entry κ)) (rest : Topics κ) :
    under ((name, entries) :: rest) event = if event = name then entries else under rest event := by
  by_cases same : event = name
  · simp [under, same]
  · have different : (event == name) = false := beq_eq_false_iff_ne.mpr same
    simp [under, List.lookup_cons, different, same]

theorem under_absent (topics : Topics κ) (event : String)
    (absent : event ∉ topics.map Prod.fst) : under topics event = [] := by
  induction topics with
  | nil => rfl
  | cons topic rest ih =>
    obtain ⟨name, entries⟩ := topic
    rw [List.map_cons, List.mem_cons, not_or] at absent
    rw [under_cons, if_neg absent.1]
    exact ih absent.2

structure Filed (topics : Topics κ) : Prop where
  names : (topics.map Prod.fst).Nodup
  occupied : ∀ topic ∈ topics, topic.2 ≠ []

theorem filed_nil : Filed ([] : Topics κ) := ⟨List.nodup_nil, by simp⟩

theorem filed_tail (topic : String × List (Entry κ)) (rest : Topics κ) (filed : Filed (topic :: rest)) :
    Filed rest :=
  ⟨(List.nodup_cons.mp filed.names).2, fun other member =>
    filed.occupied other (List.mem_cons_of_mem topic member)⟩

theorem file_names (event name : String) (entry : Entry κ) (topics : Topics κ) :
    name ∈ (file event entry topics).map Prod.fst ↔ name = event ∨ name ∈ topics.map Prod.fst := by
  induction topics with
  | nil => simp [file]
  | cons topic rest ih =>
    obtain ⟨first, entries⟩ := topic
    by_cases same : first = event
    · simp [file, same]
    · rw [file, if_neg same, List.map_cons, List.mem_cons, ih, List.map_cons, List.mem_cons]
      exact or_left_comm

theorem file_under (event other : String) (entry : Entry κ) (topics : Topics κ) :
    under (file event entry topics) other =
      if other = event then under topics other ++ [entry] else under topics other := by
  induction topics with
  | nil =>
    rw [file, under_cons]
    rfl
  | cons topic rest ih =>
    obtain ⟨name, entries⟩ := topic
    by_cases same : name = event
    · subst name
      rw [file, if_pos rfl, under_cons, under_cons]
      by_cases hit : other = event <;> simp [hit]
    · rw [file, if_neg same, under_cons, under_cons, ih]
      by_cases first : other = name
      · have different : other ≠ event := fun hit => same (first.symm.trans hit)
        rw [if_pos first, if_neg different, if_pos first]
      · simp only [if_neg first]

theorem file_filed (event : String) (entry : Entry κ) (topics : Topics κ) (filed : Filed topics) :
    Filed (file event entry topics) := by
  induction topics with
  | nil => exact ⟨by simp [file], by simp [file]⟩
  | cons topic rest ih =>
    obtain ⟨name, entries⟩ := topic
    have rest_filed := filed_tail (name, entries) rest filed
    by_cases same : name = event
    · rw [file, if_pos same]
      refine ⟨filed.names, fun other member => ?_⟩
      rcases List.mem_cons.mp member with here | later
      · simp [here]
      · exact rest_filed.occupied other later
    · rw [file, if_neg same]
      have after := ih rest_filed
      have fresh : name ∉ (file event entry rest).map Prod.fst := by
        rw [file_names, not_or]
        exact ⟨same, (List.nodup_cons.mp filed.names).1⟩
      refine ⟨List.nodup_cons.mpr ⟨fresh, after.names⟩, fun other member => ?_⟩
      rcases List.mem_cons.mp member with here | later
      · exact here ▸ filed.occupied (name, entries) List.mem_cons_self
      · exact after.occupied other later

theorem keeping_cons (keep : String → Entry κ → Bool) (name : String) (entries : List (Entry κ))
    (rest : Topics κ) :
    keeping keep ((name, entries) :: rest) =
      if entries.filter (keep name) = [] then keeping keep rest
      else (name, entries.filter (keep name)) :: keeping keep rest := by
  unfold keeping
  rw [List.map_cons, List.filter_cons]
  by_cases none_left : entries.filter (keep name) = [] <;> simp [none_left]

theorem keeping_names (keep : String → Entry κ → Bool) (topics : Topics κ) :
    ((keeping keep topics).map Prod.fst).Sublist (topics.map Prod.fst) := by
  induction topics with
  | nil => exact List.Sublist.refl _
  | cons topic rest ih =>
    obtain ⟨name, entries⟩ := topic
    rw [keeping_cons]
    split
    · exact ih.cons name
    · exact ih.cons_cons name

theorem keeping_filed (keep : String → Entry κ → Bool) (topics : Topics κ) (filed : Filed topics) :
    Filed (keeping keep topics) := by
  refine ⟨filed.names.sublist (keeping_names keep topics), fun topic member => ?_⟩
  have passes := (List.mem_filter.mp member).2
  simpa using passes

theorem keeping_under (keep : String → Entry κ → Bool) (topics : Topics κ) (event : String)
    (filed : Filed topics) :
    under (keeping keep topics) event = (under topics event).filter (keep event) := by
  induction topics with
  | nil => rfl
  | cons topic rest ih =>
    obtain ⟨name, entries⟩ := topic
    have rest_filed := filed_tail (name, entries) rest filed
    have fresh : name ∉ rest.map Prod.fst := (List.nodup_cons.mp filed.names).1
    rw [keeping_cons, under_cons]
    by_cases same : event = name
    · subst event
      rw [if_pos rfl]
      split
      · rename_i none_left
        rw [none_left, ih rest_filed, under_absent rest name fresh, List.filter_nil]
      · rw [under_cons, if_pos rfl]
    · rw [if_neg same]
      split
      · exact ih rest_filed
      · rw [under_cons, if_neg same, ih rest_filed]

theorem under_member (topics : Topics κ) (topic : String × List (Entry κ)) (filed : Filed topics)
    (member : topic ∈ topics) : under topics topic.1 = topic.2 := by
  induction topics with
  | nil => cases member
  | cons first rest ih =>
    obtain ⟨name, entries⟩ := first
    have fresh : name ∉ rest.map Prod.fst := (List.nodup_cons.mp filed.names).1
    rcases List.mem_cons.mp member with here | later
    · rw [here, under_cons, if_pos rfl]
    · have different : topic.1 ≠ name := fun same =>
        fresh (same ▸ List.mem_map_of_mem later)
      rw [under_cons, if_neg different]
      exact ih (filed_tail (name, entries) rest filed) later

theorem member_under (topics : Topics κ) (event : String) (entry : Entry κ)
    (member : entry ∈ under topics event) : (event, under topics event) ∈ topics := by
  induction topics with
  | nil => cases member
  | cons first rest ih =>
    obtain ⟨name, entries⟩ := first
    rw [under_cons] at member ⊢
    by_cases same : event = name
    · rw [if_pos same, same]
      exact List.mem_cons_self
    · rw [if_neg same] at member ⊢
      exact List.mem_cons_of_mem _ (ih member)

end ProtocolStubs.Hub
