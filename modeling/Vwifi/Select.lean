import Mathlib.Logic.Function.Basic
import Vwifi.Types

/-!
# The scheduler

`CSelect`: the list of watched descriptors, the two descriptor sets and the
maximum that `pselect` needs.
-/

namespace Vwifi

set_option autoImplicit false

abbrev FdSet := TDescriptor → Bool

structure CSelect where
  master : FdSet
  dup : FdSet
  maxDescriptor : Int
  listNodes : List TDescriptor

namespace CSelect

def init : CSelect := ⟨fun _ => false, fun _ => false, -1, []⟩

def updateMaxDescriptor (maxDescriptor : Int) (descriptor : TDescriptor) : Int :=
  if (descriptor : Int) > maxDescriptor then descriptor else maxDescriptor

def addNode (s : CSelect) (descriptor : TDescriptor) : CSelect :=
  { s with
    listNodes := s.listNodes ++ [descriptor]
    master := Function.update s.master descriptor true
    maxDescriptor := updateMaxDescriptor s.maxDescriptor descriptor }

/-- The search of `DelNode`: the nodes that stay, whether one was found, and the
maximum over the nodes that were walked through. -/
def delNodeLoop (descriptor : TDescriptor) : List TDescriptor → Int →
    List TDescriptor × Bool × Int
  | [], m => ([], false, m)
  | node :: rest, m =>
    if node = descriptor then (rest, true, rest.foldl updateMaxDescriptor m)
    else
      let r := delNodeLoop descriptor rest (updateMaxDescriptor m node)
      (node :: r.1, r.2)

def delNode (s : CSelect) (descriptor : TDescriptor) : CSelect :=
  let r := delNodeLoop descriptor s.listNodes (-1)
  { s with
    listNodes := r.1
    master := if r.2.1 then Function.update s.master descriptor false else s.master
    maxDescriptor := r.2.2 }

/-- What `pselect` does: it leaves a set of ready descriptors in `Dup`, is
interrupted by a signal, or fails for another reason. -/
inductive Selection where
  | ready (set : FdSet) (activity : Nat)
  | interrupted
  | failed

/-- `SCHEDULER_ERROR` -/
def schedulerError : Int := -1

/-- On an error `pselect` leaves the set as it was. -/
def wait (s : CSelect) : Selection → Int × CSelect
  | .ready set activity => (activity, { s with dup := set })
  | .interrupted => (-1, { s with dup := s.master })
  | .failed => (schedulerError, { s with dup := s.master })

def descriptorHasAction (s : CSelect) (descriptor : TDescriptor) : Bool := s.dup descriptor

/-- `assert( index < ListNodes.size() )` -/
def nodeHasAction (s : CSelect) (index : TIndex) : Option Bool := s.listNodes[index]?.map s.dup

end CSelect

end Vwifi
