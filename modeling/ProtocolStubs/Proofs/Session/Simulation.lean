import ProtocolStubs.Session.Agenda

set_option autoImplicit false

namespace ProtocolStubs.Agenda

theorem advance_by_succ {w : World} {σ : Type} (behave : w.Listener → Value → Program w σ)
    (steps : Nat) (a : Agenda w σ) :
    advanceBy behave (steps + 1) a = advanceBy behave steps (a.advance behave) := rfl

theorem advance_by_keeps {w : World} {σ : Type} (behave : w.Listener → Value → Program w σ)
    (kept : Agenda w σ → Prop) (step : ∀ a, kept a → kept (a.advance behave))
    (steps : Nat) (a : Agenda w σ) (start : kept a) : kept (advanceBy behave steps a) := by
  induction steps generalizing a with
  | zero => exact start
  | succ steps ih => exact ih (a.advance behave) (step a start)

theorem advance_by_add {w : World} {σ : Type} (behave : w.Listener → Value → Program w σ)
    (first second : Nat) (a : Agenda w σ) :
    advanceBy behave (first + second) a = advanceBy behave second (advanceBy behave first a) := by
  induction first generalizing a with
  | zero => rw [Nat.zero_add]; rfl
  | succ first ih => rw [Nat.succ_add, advance_by_succ, ih, advance_by_succ]

section Simulation

variable {i : Interface} {σ S T : Type}
  {performS : S → i.Op → S × i.Answer × List (Errand i.Listener i.Turn)}
  {turnS : S → i.Turn → S × List (Errand i.Listener i.Turn)}
  {performT : T → i.Op → T × i.Answer × List (Errand i.Listener i.Turn)}
  {turnT : T → i.Turn → T × List (Errand i.Listener i.Turn)}

-- Two runs side by side: only the states may differ, and these are related.
structure Alike (related : S → T → Prop) (a : Agenda ⟨i, S, performS, turnS⟩ σ)
    (b : Agenda ⟨i, T, performT, turnT⟩ σ) : Prop where
  world : related a.world b.world
  user : a.user = b.user
  jobs : a.jobs = b.jobs
  history : a.history = b.history

theorem advance_alike (related : S → T → Prop)
    (performs : ∀ s t op, related s t →
      related (performS s op).1 (performT t op).1 ∧ (performS s op).2 = (performT t op).2)
    (turns : ∀ s t turn, related s t →
      related (turnS s turn).1 (turnT t turn).1 ∧ (turnS s turn).2 = (turnT t turn).2)
    (behave : i.Listener → Value → Program i σ) (a : Agenda ⟨i, S, performS, turnS⟩ σ)
    (b : Agenda ⟨i, T, performT, turnT⟩ σ) (alike : Alike related a b) :
    Alike related (a.advance behave) (b.advance behave) := by
  obtain ⟨s, user, jobs, history⟩ := a
  obtain ⟨t, _, _, _⟩ := b
  obtain ⟨world, rfl, rfl, rfl⟩ := alike
  cases jobs with
  | nil => exact ⟨world, rfl, rfl, rfl⟩
  | cons job rest =>
    cases job with
    | run program =>
      cases program with
      | done => exact ⟨world, rfl, rfl, rfl⟩
      | look next => exact ⟨world, rfl, rfl, rfl⟩
      | store user next => exact ⟨world, rfl, rfl, rfl⟩
      | ask op next =>
        obtain ⟨after, same⟩ := performs s t op world
        exact ⟨after, rfl, by simp only [advance, same], by simp only [advance, same]⟩
    | errand e =>
      cases e with
      | call listener params => exact ⟨world, rfl, rfl, rfl⟩
      | turn turn =>
        obtain ⟨after, same⟩ := turns s t turn world
        exact ⟨after, rfl, by simp only [advance, same], rfl⟩

theorem advance_by_alike (related : S → T → Prop)
    (performs : ∀ s t op, related s t →
      related (performS s op).1 (performT t op).1 ∧ (performS s op).2 = (performT t op).2)
    (turns : ∀ s t turn, related s t →
      related (turnS s turn).1 (turnT t turn).1 ∧ (turnS s turn).2 = (turnT t turn).2)
    (behave : i.Listener → Value → Program i σ) (steps : Nat)
    (a : Agenda ⟨i, S, performS, turnS⟩ σ) (b : Agenda ⟨i, T, performT, turnT⟩ σ)
    (alike : Alike related a b) :
    Alike related (advanceBy behave steps a) (advanceBy behave steps b) := by
  induction steps generalizing a b with
  | zero => exact alike
  | succ steps ih =>
    exact ih _ _ (advance_alike related performs turns behave a b alike)

end Simulation

end ProtocolStubs.Agenda
