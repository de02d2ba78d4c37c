import ListingSnapshot.Policy
import ListingSnapshot.Proofs.Text.Blanks

/-!
# How the environment chooses a policy

Of all that the environment holds only the value under one key is looked at. White space around a
name is taken for none, be it of one character or of many and on one side or both; but the name
itself has to be written as it is, since white space inside of it and capital letters make another
name. What is no name is reported without the white space around it.

## Main definitions

* `Policy.IsPadded`: a value with a name in it and nothing else but white space around that.

## Main results

* `Policy.ofValue_eq_ok_iff`: the values that choose a policy.
* `Policy.ofValue_eq_error`: all other values.
* `Policy.ofEnvironment_rules`: the choice of an environment.
-/

namespace ListingSnapshot.Policy

/-! ### Names -/

theorem ofName?_eq_some_iff {name : String} {policy : Policy} :
    ofName? name = some policy ↔ policy.name = name := by
  constructor
  · intro h
    rw [ofName?] at h
    simpa only [decide_eq_true_eq] using List.find?_some h
  · rintro rfl
    exact ofName?_name policy

/-- No name begins with white space. -/
theorem isWhite_head?_name (policy : Policy) :
    ∀ c ∈ policy.name.toList.head?, Text.isWhite c = false := by
  cases policy <;> exact fun c hc => Option.some.inj hc ▸ rfl

/-- No name ends with white space. -/
theorem isWhite_getLast?_name (policy : Policy) :
    ∀ c ∈ policy.name.toList.getLast?, Text.isWhite c = false := by
  cases policy <;> exact fun c hc => Option.some.inj hc ▸ rfl

/-! ### Values -/

/-- The value is the name with white space around it, or with none. -/
def IsPadded (value name : String) : Prop :=
  ∃ left right, value.toList = left ++ name.toList ++ right ∧
    (∀ c ∈ left, Text.isWhite c = true) ∧ ∀ c ∈ right, Text.isWhite c = true

variable {value : String}

/-- A policy is chosen by its name and by this with white space around it. -/
theorem ofValue_eq_ok_iff {policy : Policy} :
    ofValue (some value) = .ok policy ↔ IsPadded value policy.name := by
  have hname : ofName? (String.ofList (Text.strip Text.isWhite value.toList)) = some policy ↔
      Text.strip Text.isWhite value.toList = policy.name.toList := by
    rw [ofName?_eq_some_iff, ← String.toList_inj, String.toList_ofList, eq_comm]
  rw [IsPadded, ← Text.strip_eq_iff policy.isWhite_head?_name policy.isWhite_getLast?_name,
    ← hname, ofValue]
  cases ofName? (String.ofList (Text.strip Text.isWhite value.toList)) <;> simp

/-- A value that chooses no policy is reported without the white space at its ends. -/
theorem ofValue_eq_error (h : ∀ policy : Policy, ¬IsPadded value policy.name) :
    ofValue (some value) = .error (.invalidValue "EMPTY_EVENTS_POLICY"
      ("must be reject, stale, or current, got " ++
        String.ofList (Text.strip Text.isWhite value.toList))) := by
  cases hname : ofName? (String.ofList (Text.strip Text.isWhite value.toList)) with
  | some policy =>
    refine (h policy (ofValue_eq_ok_iff.mp ?_)).elim
    rw [ofValue, hname]
  | none =>
    rw [ofValue, hname]
    rfl

/-! ### Environments -/

/-- **The choice of the environment.** Nothing but the value under one key matters. If there is none
the policy is to reject. A value chooses a policy if it is the name of that with white space around
it, or with none. Any other value is at fault, and the reason that is given ends in just that part
of it that is left when the longest runs of white space are taken from its ends. -/
theorem ofEnvironment_rules (environment : List (String × String)) :
    (∀ other : List (String × String),
      other.lookup "EMPTY_EVENTS_POLICY" = environment.lookup "EMPTY_EVENTS_POLICY" →
        ofEnvironment other = ofEnvironment environment) ∧
    match environment.lookup "EMPTY_EVENTS_POLICY" with
    | none => ofEnvironment environment = .ok .reject
    | some value =>
      (∀ policy : Policy, ofEnvironment environment = .ok policy ↔ IsPadded value policy.name) ∧
      ((∀ policy : Policy, ¬IsPadded value policy.name) →
        ∃ inner : String,
          (∀ body, Text.IsCore Text.isWhite value.toList body ↔ body = inner.toList) ∧
          ofEnvironment environment = .error (.invalidValue "EMPTY_EVENTS_POLICY"
            ("must be reject, stale, or current, got " ++ inner))) := by
  have hchoice (other : List (String × String)) :
      ofEnvironment other = ofValue (other.lookup "EMPTY_EVENTS_POLICY") := rfl
  refine ⟨fun other h => by rw [hchoice, hchoice, h], ?_⟩
  rw [hchoice]
  cases environment.lookup "EMPTY_EVENTS_POLICY" with
  | none => rfl
  | some value =>
    refine ⟨fun policy => ofValue_eq_ok_iff, fun h => ?_⟩
    refine ⟨String.ofList (Text.strip Text.isWhite value.toList), fun body => ?_,
      ofValue_eq_error h⟩
    rw [Text.isCore_iff, String.toList_ofList]

/-- A name with a capital letter is no name, and is reported without the space in front of it. -/
theorem ofEnvironment_rules_capital :
    (∀ policy : Policy, ¬IsPadded " Stale" policy.name) ∧
      ofEnvironment [("EMPTY_EVENTS_POLICY", " Stale")] =
        .error (.invalidValue "EMPTY_EVENTS_POLICY"
          "must be reject, stale, or current, got Stale") := by
  have hnone : (ofValue (some " Stale")).toOption = none := by decide +kernel
  have hpadded (policy : Policy) : ¬IsPadded " Stale" policy.name := by
    intro h
    rw [ofValue_eq_ok_iff.mpr h] at hnone
    cases hnone
  have hcore : Text.IsCore Text.isWhite " Stale".toList "Stale".toList :=
    Text.isCore_iff.mpr (by decide +kernel)
  obtain ⟨_, _, hrefused⟩ := ofEnvironment_rules [("EMPTY_EVENTS_POLICY", " Stale")]
  obtain ⟨inner, hinner, herror⟩ := hrefused hpadded
  obtain rfl : "Stale" = inner := String.toList_inj.mp ((hinner _).mp hcore)
  exact ⟨hpadded, herror⟩

/-- White space is taken away on either side, but not inside a name; and a space of no width is not
white space. -/
example :
    let choice (value : String) := (ofValue (some value)).toOption
    choice "\u2003\nstale \u3000" = some .stale ∧ choice "stale\u200b" = none ∧
      choice "sta le" = none ∧ choice "Stale" = none ∧ choice " \t" = none := by
  decide +kernel

end ListingSnapshot.Policy
