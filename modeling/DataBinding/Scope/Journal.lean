/-
# Journal

What happens during a transform is noted in a journal, in order: warnings about the user's bindings
and details for tracing.
-/

namespace DataBinding.Journal

/-- How much an entry matters. -/
inductive Level where
  | detail
  | warning
  deriving DecidableEq, Repr

/-- The activity that notes an entry. -/
inductive Activity where
  | reporting
  | rewriting
  | injecting
  | transforming
  | processing
  deriving DecidableEq, Repr

/-- One note. -/
structure Entry where
  level : Level
  activity : Activity
  message : String
  deriving DecidableEq, Repr

end DataBinding.Journal
