import MessageLookup.Capacity
import MessageLookup.Text

/-! How large buffers may be. Options hold any two capacities; the resolver that they finish to
starts no larger than it may grow, and the options do not change by it. -/

namespace MessageLookup

def Capacity.defaultInitial : Capacity := ⟨256, by decide, by decide⟩

def Capacity.defaultMax : Capacity := ⟨65536, by decide, by decide⟩

/-- The wanted sizes of the first and of the largest buffer. -/
structure Options where
  initial : Capacity := .defaultInitial
  max : Capacity := .defaultMax
deriving DecidableEq

/-- The sizes of the first and of the largest buffer of a lookup. -/
structure Resolver where
  initial : Capacity
  max : Capacity
  initial_le_max : initial ≤ max
deriving DecidableEq

def capacityFields (initial max : Capacity) : List (String × String) :=
  [("initial_capacity", Decimal.natural initial.bytes), ("max_capacity", Decimal.natural max.bytes)]

namespace Options

def withInitial (o : Options) (c : Capacity) : Options := { o with initial := c }

def withMax (o : Options) (c : Capacity) : Options := { o with max := c }

/-- The resolver with these options. -/
def finish (o : Options) : Resolver where
  initial := min o.initial o.max
  max := o.max
  initial_le_max := by
    rw [Capacity.le_def, Capacity.bytes_min]
    exact Nat.min_le_right _ _

theorem max_finish (o : Options) : o.finish.max = o.max := rfl

theorem bytes_initial_finish (o : Options) :
    o.finish.initial.bytes = min o.initial.bytes o.max.bytes := Capacity.bytes_min _ _

def debugText (o : Options) : String :=
  Record.text "ResolverOptions" (capacityFields o.initial o.max)

def isDefault (o : Options) : Bool := o == {}

end Options

namespace Resolver

def default : Resolver := Options.finish {}

def debugText (r : Resolver) : String :=
  Record.text "PlatformResolver" (capacityFields r.initial r.max)

def isDefault (r : Resolver) : Bool := r == default

/-- Options that finish to this resolver. -/
def toOptions (r : Resolver) : Options := ⟨r.initial, r.max⟩

end Resolver

end MessageLookup
