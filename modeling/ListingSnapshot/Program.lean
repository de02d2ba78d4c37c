import ListingSnapshot.Stream.Run

/-!
# The program

The program reads records from its standard input and writes reports to its standard output, under
the policy that its environment chooses. The environment is looked at first: if it chooses no
policy, nothing is read.

## Main definitions

* `Program.Ending`: what a run of the program leaves behind.
* `Program.run`: the ending for an environment and an input.
-/

namespace ListingSnapshot.Program

/-- What a run of the program leaves behind. -/
structure Ending where
  exitCode : UInt8
  output : Bytes
  complaint : String
deriving DecidableEq

/-- A message below another one, which says what was being done. Further lines of the message are
set in as far as the first. -/
def complaint (doing message : String) : String :=
  let lines := message.toList.flatMap fun c => if c = '\n' then '\n' :: "    ".toList else [c]
  "Error: " ++ doing ++ "\n\nCaused by:\n    " ++ String.ofList lines ++ "\n"

/-- The ending of the program. -/
def run (value? : Option String) (input : Bytes) : Ending :=
  match Policy.ofValue value? with
  | .error e => ⟨1, [], complaint "loading configuration" e.message⟩
  | .ok policy =>
    let run := Run.ofSource policy (.ofBytes input none none) .unlimited
    match run.outcome with
    | .ok _ => ⟨0, run.written, ""⟩
    | .error e => ⟨1, run.written, complaint "resolving listing stream" e.message⟩

end ListingSnapshot.Program
