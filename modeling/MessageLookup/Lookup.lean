import MessageLookup.Growth
import MessageLookup.Host
import MessageLookup.Options

/-! Lookups of error codes. A lookup has a name for its mechanism and answers codes one after the
other over some state; the platform's own works on a host. -/

namespace MessageLookup

/-- Something that describes error codes. -/
structure Lookup (σ : Type) where
  mechanism : String
  resolve : Int32 → σ → Resolution × σ

namespace Resolver

variable {b : Backend}

def resolve (r : Resolver) (code : Int32) (h : Host b) : Resolution × Host b :=
  grow Host.attempt code r.max r.initial h

def lookup (b : Backend) (r : Resolver) : Lookup (Host b) where
  mechanism := b.mechanism
  resolve := r.resolve

/-- The resolver that everyone shares. -/
def shared : Resolver := default

end Resolver

def describe {b : Backend} (code : Int32) (h : Host b) : Resolution × Host b :=
  Resolver.shared.resolve code h

/-- A lookup that always answers the same and leaves no trace. -/
def Lookup.fixed {σ : Type} (mechanism : String) (answer : Answer) : Lookup σ where
  mechanism := mechanism
  resolve := fun _ s => (⟨answer, [], []⟩, s)

end MessageLookup
