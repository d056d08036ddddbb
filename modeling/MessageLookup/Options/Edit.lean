import MessageLookup.Options

/-! Editing options in steps, with one saved copy. -/

namespace MessageLookup

structure Draft where
  current : Options := {}
  saved : Options := {}
deriving DecidableEq

inductive Edit where
  | reset
  | initial (c : Capacity)
  | max (c : Capacity)
  /-- Sets both capacities and finishes. -/
  | chain (initial max : Capacity)
  | save
  | load
  | finish
deriving DecidableEq

namespace Draft

def apply (d : Draft) : Edit → Draft
  | .reset => { d with current := {} }
  | .initial c => { d with current := d.current.withInitial c }
  | .max c => { d with current := d.current.withMax c }
  | .chain i m => { d with current := (d.current.withInitial i).withMax m }
  | .save => { d with saved := d.current }
  | .load => { d with current := d.saved }
  | .finish => d

def isSaved (d : Draft) : Bool := d.current == d.saved

end Draft

/-- The resolver that a step finishes to, given the draft after it. -/
def Edit.finished? (d : Draft) : Edit → Option Resolver
  | chain .. => some d.current.finish
  | finish => some d.current.finish
  | _ => none

/-- The drafts after each step, with the resolvers that were finished. -/
def Draft.run (d : Draft) : List Edit → List (Draft × Option Resolver)
  | [] => []
  | e :: es => (d.apply e, e.finished? (d.apply e)) :: (d.apply e).run es

end MessageLookup
