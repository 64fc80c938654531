import TensorMachine.Proofs.Bindings

/-!
# Runs that follow each other

Two machines that execute the same instructions on different devices are compared record by record.
One follows the other if both come exactly as far and stop for the same reason, or if the first
stops with an error that is excused, at a record which the second reached as well. It is enough to
compare single steps.
-/

namespace TensorMachine

variable {σ τ η θ : Type}

/-- What a step of one machine may be, given the step of another: both are done with machines that
are related again, both fail with the same error, or the first fails with an error that is excused
beside the answer of the second. -/
inductive Machine.StepFollows (R : Machine σ η → Machine τ θ → Prop)
    (Excused : ExecutionError → Except ExecutionError Unit → Prop) :
    Except ExecutionError Unit × Machine σ η → Except ExecutionError Unit × Machine τ θ → Prop
  | done {m : Machine σ η} {q : Machine τ θ} (h : R m q) :
    StepFollows R Excused (.ok (), m) (.ok (), q)
  | failed (e : ExecutionError) (m : Machine σ η) (q : Machine τ θ) :
    StepFollows R Excused (.error e, m) (.error e, q)
  | excused {e : ExecutionError} {answer : Except ExecutionError Unit} (h : Excused e answer)
    (m : Machine σ η) (q : Machine τ θ) : StepFollows R Excused (.error e, m) (answer, q)

/-- How far one run comes, given how far another comes. -/
inductive Progress.Follows (R : Machine σ η → Machine τ θ → Prop)
    (Excused : ExecutionError → Except ExecutionError Unit → Prop) :
    Progress σ η → Progress τ θ → Prop
  | finished (n : Nat) {m : Machine σ η} {q : Machine τ θ} (h : R m q) :
    Follows R Excused ⟨n, none, m⟩ ⟨n, none, q⟩
  | stopped (n : Nat) (e : ExecutionError) (m : Machine σ η) (q : Machine τ θ) :
    Follows R Excused ⟨n, some e, m⟩ ⟨n, some e, q⟩
  | behind {n : Nat} {e : ExecutionError} (h : Excused e (.ok ())) (m : Machine σ η)
    {b : Progress τ θ} (hlt : n < b.executed) : Follows R Excused ⟨n, some e, m⟩ b
  | apart (n : Nat) {e e' : ExecutionError} (h : Excused e (.error e')) (m : Machine σ η)
    (q : Machine τ θ) : Follows R Excused ⟨n, some e, m⟩ ⟨n, some e', q⟩

namespace Machine

lemma le_executed_advance (P : Provider σ η) (instructions : List Instruction) (n : Nat)
    (m : Machine σ η) : n ≤ (advance P instructions n m).executed := by
  induction instructions generalizing n m with
  | nil => exact Nat.le_refl n
  | cons i rest ih =>
    rw [advance]
    rcases m.step P i with ⟨_ | _, m'⟩
    · exact Nat.le_refl n
    · exact Nat.le_trans (Nat.le_succ n) (ih (n + 1) m')

lemma executed_advance_le (P : Provider σ η) (instructions : List Instruction) (n : Nat)
    (m : Machine σ η) : (advance P instructions n m).executed ≤ n + instructions.length := by
  induction instructions generalizing n m with
  | nil => exact Nat.le_refl n
  | cons i rest ih =>
    rw [advance, List.length_cons]
    rcases m.step P i with ⟨_ | _, m'⟩
    · exact Nat.le_add_right n _
    · have h := ih (n + 1) m'
      change (advance P rest (n + 1) m').executed ≤ _
      omega

/-- Machines with pools that are alike plan the same, so that a step follows the other if whatever
the first can be made to do follows what the second does with the same action. -/
theorem step_follows_of_alike {P : Provider σ η} {Q : Provider τ θ} {f : η → θ}
    {R : Machine σ η → Machine τ θ → Prop}
    {Excused : ExecutionError → Except ExecutionError Unit → Prop} {m : Machine σ η}
    {q : Machine τ θ} (h : m.pool.Alike f q.pool) (i : Instruction)
    (haction : ∀ operation (action : Action η), action.Legal m.pool →
      StepFollows R Excused (action.outcome P operation m)
        ((action.map f).outcome Q operation q)) :
    StepFollows R Excused (m.step P i) (q.step Q i) := by
  have hq := Instruction.plan_alike h i
  cases hplan : i.plan m.pool with
  | error e =>
    rw [hplan] at hq
    rw [step_of_plan_error P hplan, step_of_plan_error Q hq]
    exact .failed e m q
  | ok action =>
    rw [hplan] at hq
    rw [step_of_plan_ok P hplan, step_of_plan_ok Q hq]
    exact haction i.opcode action (Instruction.legal_of_plan hplan)

theorem advance_follows {P : Provider σ η} {Q : Provider τ θ}
    {R : Machine σ η → Machine τ θ → Prop}
    {Excused : ExecutionError → Except ExecutionError Unit → Prop}
    (hstep : ∀ i m q, R m q → StepFollows R Excused (m.step P i) (q.step Q i))
    (instructions : List Instruction) (n : Nat) {m : Machine σ η} {q : Machine τ θ} (h : R m q) :
    (advance P instructions n m).Follows R Excused (advance Q instructions n q) := by
  induction instructions generalizing n m q with
  | nil => exact .finished n h
  | cons i rest ih =>
    have hi := hstep i m q h
    rw [advance, advance]
    generalize m.step P i = a at hi
    generalize q.step Q i = b at hi
    cases hi with
    | done h => exact ih (n + 1) h
    | failed e m' q' => exact .stopped n e m' q'
    | @excused e answer hexcused m' q' =>
      cases answer with
      | ok _ => exact .behind hexcused m' (le_executed_advance Q rest (n + 1) q')
      | error e' => exact .apart n hexcused m' q'

end Machine

/-- The outcome of a run that follows another is the same, or it is an excused error. -/
theorem Progress.Follows.status {R : Machine σ η → Machine τ θ → Prop}
    {Excused : ExecutionError → Except ExecutionError Unit → Prop} {a : Progress σ η}
    {b : Progress τ θ} (h : a.Follows R Excused b) (outputs : List TensorId)
    (hmissing : ∀ m q, R m q →
      Program.missingOutput? outputs m.pool = Program.missingOutput? outputs q.pool) :
    a.status outputs = b.status outputs ∨
      ∃ n e, a.status outputs = .failed ⟨some n, e⟩ ∧
        ((Excused e (.ok ()) ∧ n < b.executed) ∨
          ∃ e', Excused e (.error e') ∧ b.status outputs = .failed ⟨some n, e'⟩) := by
  cases h with
  | finished n h =>
    refine .inl ?_
    simp only [Progress.status, hmissing _ _ h]
  | stopped n e m q => exact .inl rfl
  | @behind n e hexcused m _ hlt => exact .inr ⟨n, e, rfl, .inl ⟨hexcused, hlt⟩⟩
  | apart n hexcused m q => exact .inr ⟨n, _, rfl, .inr ⟨_, hexcused, rfl⟩⟩

/-!
### Runs that keep pace
-/

/-- What two steps may be: both give one answer and leave machines that are related again, even if
they fail, or the first fails with an error that is excused. -/
inductive Machine.StepMatches (R : Machine σ η → Machine τ θ → Prop)
    (Excused : ExecutionError → Prop) :
    Except ExecutionError Unit × Machine σ η → Except ExecutionError Unit × Machine τ θ → Prop
  | related (answer : Except ExecutionError Unit) {m : Machine σ η} {q : Machine τ θ} (h : R m q) :
    StepMatches R Excused (answer, m) (answer, q)
  | excused {e : ExecutionError} (h : Excused e) (m : Machine σ η)
    (b : Except ExecutionError Unit × Machine τ θ) : StepMatches R Excused (.error e, m) b

/-- How far two runs come: both equally far, to machines that are related, or the first to an error
that is excused. -/
inductive Progress.Matches (R : Machine σ η → Machine τ θ → Prop)
    (Excused : ExecutionError → Prop) : Progress σ η → Progress τ θ → Prop
  | related (n : Nat) (stopped : Option ExecutionError) {m : Machine σ η} {q : Machine τ θ}
    (h : R m q) : Matches R Excused ⟨n, stopped, m⟩ ⟨n, stopped, q⟩
  | excused {e : ExecutionError} (h : Excused e) (n : Nat) (m : Machine σ η) (b : Progress τ θ) :
    Matches R Excused ⟨n, some e, m⟩ b

/-- If the steps of related machines match, then so do their runs. -/
theorem Machine.advance_matches {P : Provider σ η} {Q : Provider τ θ}
    {R : Machine σ η → Machine τ θ → Prop} {Excused : ExecutionError → Prop}
    (hstep : ∀ i m q, R m q → StepMatches R Excused (m.step P i) (q.step Q i))
    (instructions : List Instruction) (n : Nat) {m : Machine σ η} {q : Machine τ θ} (h : R m q) :
    (advance P instructions n m).Matches R Excused (advance Q instructions n q) := by
  induction instructions generalizing n m q with
  | nil => exact .related n none h
  | cons i rest ih =>
    have hi := hstep i m q h
    rw [advance, advance]
    generalize m.step P i = a at hi
    generalize q.step Q i = b at hi
    cases hi with
    | related answer h =>
      cases answer with
      | ok _ => exact ih (n + 1) h
      | error e => exact .related n (some e) h
    | excused h m' b => exact .excused h n m' _

end TensorMachine
