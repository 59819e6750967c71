import Kay.Log.Directive

/-!
# Log filters

Which events reach a log. A filter is a list of directives. Of those that apply to an event the most
special one decides, and of several that are equally special the last; an event without any is not
let through.

Filters are written as directives with commas between them. A filter with a directive that cannot be
read is no filter at all.
-/

namespace Kay.Log

/-- Directives in the order in which they were written. -/
abbrev Filter := List Directive

namespace Filter

/-- The filter with one threshold for all events. -/
def uniform (s : Severity) : Filter := [.everywhere s.rank]

/-- The filter that a text stands for. A text without directives admits errors only. -/
def ofString? (text : String) : Option Filter :=
  let ps := (Text.pieces ',' text.toList).filter (· ≠ [])
  if ps.isEmpty then some (uniform .error) else ps.mapM Directive.ofText?

/-- The filter for a run: that of a verbose run if it is one, else the one that the environment
asks for, if it can be read, else warnings and errors. -/
def ofSettings (verbose : Bool) (environment : Option String) : Filter :=
  if verbose then uniform .debug else (environment.bind ofString?).getD (uniform .warn)

/-- The highest rank that a filter admits for the like of an event. -/
def thresholdFor (f : Filter) (e : Event) : Threshold :=
  match (f.filter (·.appliesTo e)).foldl Directive.decisive none with
  | some d => d.threshold
  | none => 0

/-- Whether a filter lets an event through. -/
def admits (f : Filter) (e : Event) : Bool := e.severity.rank ≤ f.thresholdFor e

end Filter

end Kay.Log
