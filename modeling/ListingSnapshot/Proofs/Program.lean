import ListingSnapshot.Program
import ListingSnapshot.Proofs.Stream.Framing

/-!
# How the program ends

The program has two ways to fail: the environment chooses no policy, or the run fails. As long as
standard input and output do their part no run fails, whatever the records are. So the environment
alone decides the exit code.

## Main results

* `Program.run_eq_of_error`, `Program.run_eq_of_ok`: the ending by the choice of the environment.
* `Program.run_environment`: the ending for an environment, whatever the input.
-/

namespace ListingSnapshot.Program

variable {value? : Option String}

/-- Without a policy nothing is looked at and nothing is written. -/
theorem run_eq_of_error {e : ConfigError} (h : Policy.ofValue value? = .error e) (input : Bytes) :
    run value? input = ⟨1, [], complaint "loading configuration" e.message⟩ := by
  rw [run, h]

/-- With a policy the program does what a run does, however the input comes in. -/
theorem run_eq_of_ok {policy : Policy} (h : Policy.ofValue value? = .ok policy)
    (chunks : List Bytes) : run value? chunks.flatten =
      ⟨0, (Run.ofSource policy ⟨chunks, none⟩ .unlimited).written, ""⟩ := by
  have hflatten : [chunks.flatten].flatten = chunks.flatten := List.flatten_singleton
  have houtcome := Run.outcome_unlimited policy [chunks.flatten]
  have hwritten : (Run.ofSource policy ⟨[chunks.flatten], none⟩ .unlimited).written =
      (Run.ofSource policy ⟨chunks, none⟩ .unlimited).written := by
    rw [Run.written_unlimited, Run.written_unlimited, hflatten]
  simp only [run, h, Source.ofBytes, houtcome, hwritten]

/-- **The environment decides how the program ends.** If it chooses a policy, the program exits with
0, and its output is what the run under this policy writes, which comes to its proper end whatever
the input is and however it comes in. If it chooses none, the program exits with 1, whatever the
input is, and has no output. So the exit code tells nothing about the records. -/
theorem run_environment (environment : List (String × String)) :
    let run := Program.run (environment.lookup Policy.environmentKey)
    (match Policy.ofEnvironment environment with
      | .ok policy => ∀ chunks,
        let replies := Run.ofSource policy ⟨chunks, none⟩ .unlimited
        (∃ summary, replies.outcome = .ok summary) ∧
          run chunks.flatten = ⟨0, replies.written, ""⟩
      | .error e => ∀ input,
        run input = ⟨1, [], complaint "loading configuration" e.message⟩) ∧
      ∀ input input', (run input).exitCode = (run input').exitCode := by
  intro run
  cases hpolicy : Policy.ofEnvironment environment with
  | error e =>
    have hrun (input : Bytes) : run input = _ := run_eq_of_error hpolicy input
    exact ⟨hrun, fun input input' => by rw [hrun, hrun]⟩
  | ok policy =>
    have hrun (chunks : List Bytes) : run chunks.flatten = _ := run_eq_of_ok hpolicy chunks
    have hexit (input : Bytes) : (run input).exitCode = 0 := by
      rw [← List.flatten_singleton (l := input), hrun]
    exact ⟨fun chunks => ⟨⟨_, Run.outcome_unlimited policy chunks⟩, hrun chunks⟩,
      fun input input' => by rw [hexit, hexit]⟩

end ListingSnapshot.Program
