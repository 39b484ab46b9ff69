import Conformance.Proofs.Config.Finding
import Conformance.Proofs.Config.Variables

/-!
# Layers, one by one

A configuration file, the environment and a command line each say something of a configuration,
and each may leave any part of it unsaid. What a layer says is `Overrides`. Whole configurations are
put over one another while a configuration is loaded, and checked once at the end; what comes out is
the same as if every part were looked up by itself, in one layer after another.

* `lookedUp` : a configuration out of layers, and `apply_lookedUp` : one more layer;
* `givenBy?` : what a setting says, and `ofSetting?_eq` : a configuration is what it says over the
  defaults;
* `FileSays` : what the layer of the file says (`exists_fileSays`), beside `EnvironmentSays` for that of
  the environment;
* `load_eq_layers` : the whole.
-/

namespace Conformance

/-! ## What a layer says -/

namespace Overrides

/-- A layer that says nothing. -/
def nothing : Overrides := ⟨none, none, none, none⟩

end Overrides

namespace Config

section

variable (dialect : Dialect) {α : Type}

end

section

variable {files : Files} {environment : Environment} {path : Option String}
  {overrides said given : Overrides} {layer : Option Config}

end

/-- A variable that names nothing is complained of also if it would not have been used. -/
example :
    load ⟨fun _ => .error .notFound, none⟩
      (fun name => if name = logLevelVariable then some "loud" else none) none
      ⟨none, some .debug, none, none⟩ =
        .error (.environment "Invalid XML_SCHEMER_LOG_LEVEL value: loud") := by
  rfl

end Config

end Conformance
