import HeaderSchema.Schema.Registry
import HeaderSchema.Schema.Tally

/-!
# Reports

`Counters` grow while declarations are read; a `Report` sets them beside the
sizes of the registry that the declarations built.
-/

namespace HeaderSchema

/-- What was met so far: declarations of each modelled kind, members that were
appended, and other top-level declarations by their tag. -/
structure Counters where
  interfaces : Nat
  categories : Nat
  protocols : Nat
  properties : Nat
  methods : Nat
  /-- Kinds that are known but have no place in a schema. -/
  unmodeled : Tally
  /-- Every other kind. -/
  ignored : Tally
deriving DecidableEq

/-- Nothing was met. -/
def Counters.zero : Counters :=
  ⟨0, 0, 0, 0, 0, .empty, .empty⟩

/-- What a finished extraction has to say about itself. -/
structure Report where
  source : Option String
  containers : Nat
  interfaces : Nat
  protocols : Nat
  counters : Counters
deriving DecidableEq

/-- The number of containers that are interfaces. -/
def Registry.interfaceCount (r : Registry) : Nat :=
  r.containers.countP (·.isInterface)

/-- Sums up a registry and the counters that go with it. -/
def Report.of (registry : Registry) (counters : Counters) : Report :=
  let interfaces := registry.interfaceCount
  ⟨none, registry.size, interfaces, registry.size - interfaces, counters⟩

end HeaderSchema
