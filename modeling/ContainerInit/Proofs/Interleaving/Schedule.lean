import ContainerInit.Proofs.Interleaving.Step

/-!
# Schedules

Concrete runs are given by their schedules: who does what, one step after the other (`follow?`).
What a schedule leads to is reachable (`reachable_of_follow?`), and a schedule leaves the callers
alone that it does not mention (`idle_of_follow?`).
-/

namespace ContainerInit.Interleaving

variable {c d : Interleaving}

/-- Follows a schedule. -/
def follow? (c : Interleaving) : List (Caller × Choice) → Option Interleaving
  | [] => some c
  | (u, choice) :: rest =>
    match c.step? u choice with
    | none => none
    | some d => d.follow? rest

theorem Reachable.trans {start : Interleaving} (h : Reachable start c) (h' : Reachable c d) :
    Reachable start d := by
  induction h' with
  | refl => exact h
  | step u choice _ taken ih => exact .step u choice ih taken

theorem reachable_of_follow? {schedule : List (Caller × Choice)}
    (h : c.follow? schedule = some d) : Reachable c d := by
  induction schedule generalizing c with
  | nil => cases h; exact .refl
  | cons turn rest ih =>
    unfold follow? at h
    split at h
    · cases h
    · rename_i b hb
      exact (Reachable.step turn.1 turn.2 .refl hb).trans (ih h)

/-! ## Callers that do nothing -/

/-- A step of one caller leaves the calls of the others alone. -/
theorem frames_of_step? {u v : Caller} {choice : Choice} (h : c.step? u choice = some d)
    (hv : v ≠ u) : d.frames v = c.frames v := by
  have other : ∀ (b : Interleaving) (frames : List Frame) (marks : List Mark),
      ((b.setFrames u frames).mark marks).frames v = b.frames v :=
    fun b frames marks => by rw [mark, frames_setFrames, if_neg hv]
  have same : ∀ (b : Interleaving) (frames : List Frame),
      (b.setFrames u frames).frames v = b.frames v :=
    fun b frames => by rw [frames_setFrames, if_neg hv]
  cases choice with
  | act action =>
    unfold step? begin? at h
    simp only [Option.ite_none_right_eq_some, Option.some.injEq] at h
    obtain ⟨-, rfl⟩ := h
    exact other _ _ _
  | go =>
    simp only [step?, go?] at h
    repeat' split at h
    all_goals cases h
    all_goals first | rfl | exact other _ _ _ | exact same _ _
  | finish outcome =>
    simp only [step?] at h
    repeat' split at h
    all_goals cases h
    exact other _ _ _

/-- Every call has returned if those of the callers in the schedule have. -/
theorem idle_of_follow? {schedule : List (Caller × Choice)} (h : c.follow? schedule = some d)
    (init : c.Idle) (mentioned : ∀ turn ∈ schedule, d.frames turn.1 = []) : d.Idle := by
  intro v
  by_cases hv : ∃ turn ∈ schedule, turn.1 = v
  · obtain ⟨turn, hm, rfl⟩ := hv
    exact mentioned turn hm
  · have silent : ∀ turn ∈ schedule, turn.1 ≠ v := fun turn hm he => hv ⟨turn, hm, he⟩
    have hc := init v
    clear hv mentioned init
    induction schedule generalizing c with
    | nil => cases h; exact hc
    | cons turn rest ih =>
      unfold follow? at h
      split at h
      · cases h
      · rename_i b hb
        refine ih h (fun t ht => silent t (List.mem_cons_of_mem _ ht)) ?_
        rw [frames_of_step? hb (silent turn List.mem_cons_self).symm, hc]

end ContainerInit.Interleaving
