import Mathlib.Data.List.Basic

/-!
# Aggregates

`DomainEvent` and `AggregateRoot`. The fields of a class derived from `AggregateRoot` are its `state`;
the `Id` is one of them, since it is set by an event like the others.
-/

namespace FaasNet.Domain

/-- `DomainEvent`; the fields of the derived class are its `payload`. -/
structure DomainEvent (P : Type*) where
  id : String
  aggregateId : Option String
  aggregateVersion : Nat := 0
  payload : P
  deriving DecidableEq, Repr

/-- `AggregateRoot`. `I` is the type of its integration events. -/
structure AggregateRoot (S P I : Type*) where
  state : S
  version : Nat := 0
  lastEvtOffset : Nat := 0
  domainEvts : List (DomainEvent P) := []
  integrationEvents : List I := []
  deriving DecidableEq, Repr

namespace AggregateRoot

section
variable {S P I : Type*}

/-- `AggregateRoot.Commit`. The events stay where they are. -/
def commit (root : AggregateRoot S P I) : AggregateRoot S P I :=
  { root with
    version := root.version + 1
    domainEvts := root.domainEvts.map fun domainEvt => { domainEvt with aggregateVersion := root.version + 1 }
    lastEvtOffset := root.lastEvtOffset + root.domainEvts.length }

end

end AggregateRoot

end FaasNet.Domain
