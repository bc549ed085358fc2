import Chart.Machine.Construction
import Chart.Run.Operations

set_option autoImplicit false

/-!
How a computation on a machine ends. `Ends run machine finished failed` says what holds of the
answer and the machine when the computation finishes, and of the failure and the machine when it
does not. Each way to put computations together has one equation, so that a statement about an
operation follows the text of the operation.
-/

namespace Chart

def Ends {Failure Answer : Type} (run : EStateM Failure Machine Answer) (machine : Machine)
    (finished : Answer → Machine → Prop) (failed : Failure → Machine → Prop) : Prop :=
  match run machine with
  | .ok answer after => finished answer after
  | .error failure after => failed failure after

section Rules

variable {Failure Answer Other : Type} {machine : Machine}
variable {finished : Answer → Machine → Prop} {failed : Failure → Machine → Prop}

theorem ends_of_finished {run : EStateM Failure Machine Answer} {answer : Answer}
    {after : Machine} (ends : Ends run machine finished failed)
    (result : run machine = .ok answer after) : finished answer after := by
  unfold Ends at ends
  rw [result] at ends
  exact ends

theorem ends_of_failed {run : EStateM Failure Machine Answer} {failure : Failure}
    {after : Machine} (ends : Ends run machine finished failed)
    (result : run machine = .error failure after) : failed failure after := by
  unfold Ends at ends
  rw [result] at ends
  exact ends

theorem ends_intro {run : EStateM Failure Machine Answer}
    (whenFinished : ∀ answer after, run machine = .ok answer after → finished answer after)
    (whenFailed : ∀ failure after, run machine = .error failure after → failed failure after) :
    Ends run machine finished failed := by
  unfold Ends
  cases result : run machine with
  | ok answer after => exact whenFinished answer after result
  | error failure after => exact whenFailed failure after result

theorem Ends.mono {run : EStateM Failure Machine Answer}
    {finished' : Answer → Machine → Prop} {failed' : Failure → Machine → Prop}
    (ends : Ends run machine finished failed)
    (whenFinished : ∀ answer after, finished answer after → finished' answer after)
    (whenFailed : ∀ failure after, failed failure after → failed' failure after) :
    Ends run machine finished' failed' :=
  ends_intro
    (fun answer after result => whenFinished answer after (ends_of_finished ends result))
    (fun failure after result => whenFailed failure after (ends_of_failed ends result))

theorem Ends.and {run : EStateM Failure Machine Answer}
    {finished' : Answer → Machine → Prop} {failed' : Failure → Machine → Prop}
    (ends : Ends run machine finished failed) (also : Ends run machine finished' failed') :
    Ends run machine (fun answer after => finished answer after ∧ finished' answer after)
      (fun failure after => failed failure after ∧ failed' failure after) :=
  ends_intro
    (fun _ _ result => ⟨ends_of_finished ends result, ends_of_finished also result⟩)
    (fun _ _ result => ⟨ends_of_failed ends result, ends_of_failed also result⟩)

@[simp] theorem ends_pure (answer : Answer) :
    Ends (pure answer : EStateM Failure Machine Answer) machine finished failed ↔
      finished answer machine := Iff.rfl

@[simp] theorem ends_bind (first : EStateM Failure Machine Other)
    (next : Other → EStateM Failure Machine Answer) :
    Ends (first >>= next) machine finished failed ↔
      Ends first machine (fun answer after => Ends (next answer) after finished failed)
        failed := by
  unfold Ends
  simp only [bind, EStateM.bind]
  cases first machine <;> exact Iff.rfl

@[simp] theorem ends_get {seen : Machine → Machine → Prop} :
    Ends (get : EStateM Failure Machine Machine) machine seen failed ↔
      seen machine machine := Iff.rfl

@[simp] theorem ends_set {written : PUnit → Machine → Prop} (after : Machine) :
    Ends (set after : EStateM Failure Machine PUnit) machine written failed ↔
      written ⟨⟩ after := Iff.rfl

@[simp] theorem ends_modify {changed : PUnit → Machine → Prop} (change : Machine → Machine) :
    Ends (modify change : EStateM Failure Machine PUnit) machine changed failed ↔
      changed ⟨⟩ (change machine) := Iff.rfl

@[simp] theorem ends_modifyGet (change : Machine → Answer × Machine) :
    Ends (modifyGet change : EStateM Failure Machine Answer) machine finished failed ↔
      finished (change machine).1 (change machine).2 := Iff.rfl

@[simp] theorem ends_throw (failure : Failure) :
    Ends (throw failure : EStateM Failure Machine Answer) machine finished failed ↔
      failed failure machine := Iff.rfl

@[simp] theorem ends_discard {ended : PUnit → Machine → Prop}
    (run : EStateM Failure Machine Answer) :
    Ends (discard run) machine ended failed ↔
      Ends run machine (fun _ after => ended ⟨⟩ after) failed := by
  unfold Ends
  simp only [discard, Functor.discard, Functor.mapConst, EStateM.map, Function.comp,
    Function.const]
  cases run machine <;> exact Iff.rfl

@[simp] theorem ends_forM_nil {Item : Type} {ended : PUnit → Machine → Prop}
    (step : Item → EStateM Failure Machine PUnit) :
    Ends (([] : List Item).forM step) machine ended failed ↔ ended ⟨⟩ machine := Iff.rfl

@[simp] theorem ends_forM_cons {Item : Type} {ended : PUnit → Machine → Prop} (item : Item)
    (rest : List Item) (step : Item → EStateM Failure Machine PUnit) :
    Ends ((item :: rest).forM step) machine ended failed ↔
      Ends (step item) machine (fun _ after => Ends (rest.forM step) after ended failed)
        failed :=
  ends_bind (step item) fun _ => rest.forM step

theorem ends_forM_append {Item : Type} {ended : PUnit → Machine → Prop}
    (early late : List Item) (step : Item → EStateM Failure Machine PUnit) :
    Ends ((early ++ late).forM step) machine ended failed ↔
      Ends (early.forM step) machine (fun _ after => Ends (late.forM step) after ended failed)
        failed := by
  induction early generalizing machine with
  | nil => rfl
  | cons item rest ih => simp only [List.cons_append, ends_forM_cons, ih]

end Rules

namespace Run

variable {Answer : Type} {machine : Machine}
variable {finished : Answer → Machine → Prop} {failed : Halt → Machine → Prop}
variable {ended : PUnit → Machine → Prop}

@[simp] theorem ends_note (event : Event) :
    Ends (note event) machine ended failed ↔ ended ⟨⟩ (machine.note event) := Iff.rfl

@[simp] theorem ends_report (notice : Notice) :
    Ends (report notice) machine ended failed ↔ ended ⟨⟩ (machine.note (.notice notice)) := Iff.rfl

@[simp] theorem ends_warn (error : UsageError) :
    Ends (warn error) machine ended failed ↔
      ended ⟨⟩ (machine.note (.notice (.misuse error))) := Iff.rfl

@[simp] theorem ends_raise (error : MachineError) :
    Ends (raise error) machine finished failed ↔ failed (.error error) machine := Iff.rfl

@[simp] theorem ends_fail (error : ConfigurationError) :
    Ends (fail error) machine finished failed ↔
      failed (.error (.configuration error))
        (machine.note (.notice (.misconfiguration error))) := Iff.rfl

@[simp] theorem ends_attempt {answered : Except MachineError Answer → Machine → Prop}
    (run : Run Answer) :
    Ends (attempt run) machine answered failed ↔
      Ends run machine (fun answer after => answered (.ok answer) after)
        (fun halt after =>
          match halt with
          | .error error => answered (.error error) after
          | .exhausted => failed .exhausted after) := by
  unfold Ends attempt
  cases result : run machine with
  | ok answer after => exact Iff.rfl
  | error halt after => cases halt <;> exact Iff.rfl

theorem ends_of_attempt {run : Run Answer} {answer : Except MachineError Answer} {after : Machine}
    (ends : Ends run machine finished failed) (result : attempt run machine = .ok answer after) :
    (∃ value, answer = .ok value ∧ finished value after) ∨
      ∃ error, answer = .error error ∧ failed (.error error) after := by
  unfold attempt at result
  split at result
  · rename_i value machine finishes
    cases result
    exact Or.inl ⟨value, rfl, ends_of_finished ends finishes⟩
  · rename_i error machine fails
    cases result
    exact Or.inr ⟨error, rfl, ends_of_failed ends fails⟩
  · cases result

theorem ends_self (run : Run Answer) (machine : Machine) :
    Ends run machine (fun answer after => run machine = .ok answer after)
      fun halt after => run machine = .error halt after :=
  ends_intro (fun _ _ result => result) fun _ _ result => result

theorem ends_attempt_of {answered : Except MachineError Answer → Machine → Prop} {run : Run Answer}
    (answers : ∀ answer after, attempt run machine = .ok answer after → answered answer after) :
    Ends (attempt run) machine answered fun halt _ => halt = .exhausted := by
  apply ends_intro answers
  intro halt after fails
  unfold attempt at fails
  split at fails <;> cases fails
  rfl

theorem attempt_of_discard {run : Run Answer} {answer : Except MachineError Unit} {after : Machine}
    (returns : attempt (discard run) machine = .ok answer after) :
    ∃ result, attempt run machine = .ok result after := by
  have ends : Ends (discard run) machine
    (fun _ after => ∃ result, attempt run machine = .ok result after)
      fun halt after => ∀ error, halt = .error error →
        ∃ result, attempt run machine = .ok result after := by
    rw [ends_discard]
    refine ends_intro (fun value _ finishes => ⟨.ok value, ?_⟩) ?_
    · unfold attempt
      rw [finishes]
    · rintro _ _ fails error rfl
      refine ⟨.error error, ?_⟩
      unfold attempt
      rw [fails]
  rcases ends_of_attempt ends returns with ⟨_, _, known⟩ | ⟨error, _, known⟩
  · exact known
  · exact known error rfl

theorem eq_of_ends {run run' : Run Answer} {machine machine' : Machine}
    (alike : ∀ finished failed, Ends run machine finished failed ↔
      Ends run' machine' finished failed) : run machine = run' machine' := by
  have same := (alike (fun answer after => run' machine' = .ok answer after)
    fun halt after => run' machine' = .error halt after).mpr
      (ends_self run' machine')
  unfold Ends at same
  cases result : run machine with
  | ok answer after =>
      rw [result] at same
      exact same.symm
  | error halt after =>
      rw [result] at same
      exact same.symm

end Run
end Chart
