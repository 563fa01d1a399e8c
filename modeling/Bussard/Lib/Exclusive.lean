import Mathlib.Data.List.Induction

/-! A resource that one party holds at a time, seen from the record of what was granted and given
back. -/
namespace Exclusive

variable {Id : Type} [DecidableEq Id]

inductive Event (Id : Type) where
  | granted (id : Id)
  | released (id : Id)
  deriving DecidableEq

/-- Who holds the resource after one more event. -/
def holds (holder : Option Id) : Event Id → Option Id
  | .granted id => some id
  | .released id => if holder = some id then none else holder

def holder (log : List (Event Id)) : Option Id := log.foldl holds none

/-- Nothing is granted while somebody holds it. -/
inductive Alternates : List (Event Id) → Prop where
  | nil : Alternates []
  | granted {log : List (Event Id)} (id : Id) (h : Alternates log) (hFree : holder log = none) :
      Alternates (log ++ [.granted id])
  | released {log : List (Event Id)} (id : Id) (h : Alternates log) :
      Alternates (log ++ [.released id])

section
variable {log before between after : List (Event Id)} {a b : Id}

theorem holder_concat (log : List (Event Id)) (event : Event Id) :
    holder (log ++ [event]) = holds (holder log) event := by
  rw [holder, List.foldl_append]
  rfl

end

end Exclusive
