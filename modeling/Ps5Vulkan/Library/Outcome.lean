import Mathlib.Data.List.Forall2

/-!
# Outcomes that keep the state of a failure

A fallible computation over an explicit state ends with a value, or with a reason and the state it
stopped in. `Post` states what holds of either end, so one rule for sequencing serves the results
about completed runs and those about refused ones.
-/

namespace Outcome

universe u

variable {ε σ : Type*} {α β : Type u}

/-- `ok` holds of the returned value, or `fail` of the reason and the state left behind. -/
def Post (result : Except (ε × σ) α) (ok : α → Prop) (fail : ε → σ → Prop) : Prop :=
  match result with
  | .ok value => ok value
  | .error stopped => fail stopped.1 stopped.2

variable {result : Except (ε × σ) α} {ok ok' : α → Prop} {fail fail' : ε → σ → Prop}

section

variable (h : Post result ok fail)

include h

theorem Post.mono (hok : ∀ value, ok value → ok' value)
    (hfail : ∀ reason state, fail reason state → fail' reason state) : Post result ok' fail' := by
  cases result with
  | ok value => exact hok value h
  | error stopped => exact hfail _ _ h

theorem Post.bind {next : α → Except (ε × σ) β} {done : β → Prop}
    (hnext : ∀ value, ok value → Post (next value) done fail) : Post (result >>= next) done fail := by
  cases result with
  | ok value => exact hnext value h
  | error stopped => exact h

theorem Post.and (h' : Post result ok' fail') : Post result (fun value => ok value ∧ ok' value)
      (fun reason state => fail reason state ∧ fail' reason state) := by
  cases result with
  | ok value | error stopped => exact ⟨h, h'⟩

theorem Post.of_eq_ok {value : α} (heq : result = .ok value) :
    ok value := by
  subst heq
  exact h

theorem Post.of_eq_error {reason : ε} {state : σ} (heq : result = .error (reason, state)) : fail reason state := by
  subst heq
  exact h

end

/-- A computation that evaluation finds to go through. -/
theorem exists_ok (result : Except (ε × σ) α) {P : α → Prop} [DecidablePred P]
    (h : result.toOption.any (P ·) = true) : ∃ value, result = .ok value ∧ P value := by
  cases result with
  | ok value => exact ⟨value, rfl, of_decide_eq_true h⟩
  | error stopped => cases h

section FallibleMaps

variable {ι κ : Type*} {f : ι → Option κ} {inputs : List ι} {outputs : List κ}

/-- The outputs of a map that does not fail, each with its input. -/
theorem forall₂_of_mapM (h : inputs.mapM f = some outputs) :
    List.Forall₂ (fun input output => f input = some output) inputs outputs := by
  induction inputs generalizing outputs with
  | nil =>
    obtain rfl : [] = outputs := by simpa using h
    exact .nil
  | cons input inputs ih =>
    simp only [List.mapM_cons, Option.bind_eq_bind, Option.bind_eq_some_iff, Option.pure_def,
      Option.some.injEq] at h
    obtain ⟨first, hfirst, rest, hrest, rfl⟩ := h
    exact .cons hfirst (ih hrest)

/-- Where relating an output is a matter of its input, relating all is one of all inputs. -/
theorem forall₂_iff_forall_mem {relation : ι → κ → Prop} {holds : ι → Prop}
    (h : List.Forall₂ (fun input output => relation input output ↔ holds input) inputs outputs) :
    List.Forall₂ relation inputs outputs ↔ ∀ input ∈ inputs, holds input := by
  induction h with
  | nil => simp
  | cons hfirst _ ih =>
    rw [List.forall₂_cons, List.forall_mem_cons]
    exact and_congr hfirst ih

end FallibleMaps

end Outcome
