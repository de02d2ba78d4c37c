import ListingSnapshot.Text.Blank

/-!
# The policy for empty event logs

A snapshot is current when it was taken at the latest block of the event log. An empty log has no
latest block, so the answer is a matter of policy, which the environment of the program chooses.

## Main definitions

* `Policy`: the three policies.
* `Policy.name`, `Policy.ofName?`: their names.
* `ConfigError`: why an environment chooses no policy.
* `Policy.ofEnvironment`: the policy that an environment chooses.
-/

namespace ListingSnapshot

/-- What is answered for a snapshot whose event log is empty. -/
inductive Policy
  /-- There is no answer. -/
  | reject
  /-- The snapshot is out of date. -/
  | stale
  /-- Nothing has happened since, so the snapshot is current. -/
  | current
deriving DecidableEq

namespace Policy

/-- The policy where none is chosen. -/
instance : Inhabited Policy := ⟨reject⟩

/-- The name of a policy. -/
def name : Policy → String
  | reject => "reject"
  | stale => "stale"
  | current => "current"

/-- The policy with this name. -/
def ofName? (name : String) : Option Policy :=
  [reject, stale, current].find? fun policy => policy.name = name

@[simp] theorem ofName?_name (policy : Policy) : ofName? policy.name = some policy := by
  cases policy <;> decide

end Policy

/-! ### Choice by the environment -/

/-- Why an environment chooses no policy. -/
inductive ConfigError
  /-- The value stored under this key is not one of those admitted. -/
  | invalidValue (key reason : String)
deriving DecidableEq

namespace ConfigError

/-- The key whose value is at fault. -/
def key : ConfigError → String
  | invalidValue key _ => key

/-- What is wrong with the value. -/
def reason : ConfigError → String
  | invalidValue _ reason => reason

/-- The message for the user. -/
def message (e : ConfigError) : String :=
  "Invalid value for " ++ e.key ++ ": " ++ e.reason

end ConfigError

namespace Policy

/-- The key under which the environment holds the name of the policy. -/
def environmentKey : String := "EMPTY_EVENTS_POLICY"

/-- The policy that a value names, blanks around the name aside; no value chooses `reject`. -/
def ofValue (value? : Option String) : Except ConfigError Policy :=
  match value? with
  | none => .ok default
  | some value =>
    let name := String.ofList (Text.strip Text.isWhite value.toList)
    match ofName? name with
    | some policy => .ok policy
    | none => .error (.invalidValue environmentKey
        ("must be reject, stale, or current, got " ++ name))

/-- The policy that an environment chooses, given as keys with their values. -/
def ofEnvironment (environment : List (String × String)) : Except ConfigError Policy :=
  ofValue (environment.lookup environmentKey)

end Policy

end ListingSnapshot
