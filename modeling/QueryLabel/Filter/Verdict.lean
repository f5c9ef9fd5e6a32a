import QueryLabel.Filter.Directive

/-!
What a filter lets through.  Directives without a span and a value are rules about targets, and the
most specific rule decides; directives with a span or a field are about spans, and let through
what happens inside a span that they match.
-/

namespace QueryLabel.Filter

/-- A place in the program that reports events: its target, its level, and the names of the fields
that it gives. -/
structure EventSite where
  target : Text
  level : Level
  fields : List Text
deriving Repr, DecidableEq

/-- A span of the program: its name, its target, its level, and its fields with their values. -/
structure SpanSite where
  name : Text
  target : Text
  level : Level
  fields : List (Text × Nat)
deriving Repr, DecidableEq

/-- A rule about targets that begin with a text, or about all of them, and perhaps only about events
that give a field. -/
structure Rule where
  target : Option Text
  field : Option Text
  level : Level
deriving Repr, DecidableEq

/-- Directives with a span or a field are about spans. -/
def Directive.isDynamic (d : Directive) : Bool :=
  d.span.isSome || d.field.isSome

/-- Whether a directive asks for the value of a field. -/
def Directive.hasValue (d : Directive) : Bool :=
  (d.field.bind FieldMatch.value).isSome

/-- The rule about targets that a directive is, if it asks for neither a span nor a value. -/
def Directive.rule? (d : Directive) : Option Rule :=
  if d.span.isSome || d.hasValue then none
  else some ⟨d.target, d.field.map FieldMatch.name, d.level⟩

/-- A filter, sorted into directives about spans and rules about targets. -/
structure Table where
  dynamics : List Directive
  rules : List Rule
deriving Repr, DecidableEq

/-- The rule of a filter without any directives. -/
def defaultRule : Rule := ⟨none, none, .error⟩

/-- Sort directives.  The rules among directives about spans come behind the others. -/
def Table.ofDirectives (directives : List Directive) : Table :=
  let dynamics := directives.filter Directive.isDynamic
  let plain := directives.filter fun d => !d.isDynamic
  let rules := plain.filterMap Directive.rule? ++ dynamics.filterMap Directive.rule?
  ⟨dynamics, if rules = [] ∧ dynamics = [] then [defaultRule] else rules⟩

/-- Whether a target begins with the text that is asked for. -/
def coversTarget (wanted : Option Text) (target : Text) : Bool :=
  match wanted with
  | none => true
  | some wanted => wanted.isPrefixOf target

/-- How specific a rule is: the length of its target, then whether it asks for a field. -/
def Rule.weight (rule : Rule) : Nat × Nat :=
  (rule.target.elim 0 fun target => target.length + 1, rule.field.elim 0 fun _ => 1)

/-- Whether a rule is looked at before another one.  Between equally specific ones the greater name
of a field comes first, and one that is given again replaces the one before. -/
def Rule.outranks (new old : Rule) : Bool :=
  let (a, b) := new.weight
  let (c, d) := old.weight
  c < a || (c = a && (d < b || (d = b && ¬ (new.field.getD []) < (old.field.getD []))))

/-- The most specific one among some rules. -/
def mostSpecific? (rules : List Rule) : Option Rule :=
  rules.foldl
    (fun best rule =>
      match best with
      | none => some rule
      | some old => if rule.outranks old then some rule else some old)
    none

namespace Table

/-- The loudest level among some. -/
def loudest (levels : List Level) : Level :=
  levels.foldl Level.max .off

/-- The loudest level that could be let through at all.  Where values of fields count, every span
has to be looked at. -/
def ceiling (table : Table) : Level :=
  if table.dynamics.any Directive.hasValue then .trace
  else
    (loudest (table.rules.map Rule.level)).max (loudest (table.dynamics.map Directive.level))

/-- Whether the rules let an event through. -/
def rulesAllow (table : Table) (event : EventSite) : Bool :=
  let matching := table.rules.filter fun rule =>
    coversTarget rule.target event.target &&
      rule.field.all fun field => event.fields.contains field
  match mostSpecific? matching with
  | some rule => rule.level.allows event.level
  | none => false

/-- Whether the rules let a span through; its fields do not count. -/
def rulesAllowSpan (table : Table) (span : SpanSite) : Bool :=
  match mostSpecific? (table.rules.filter fun rule => coversTarget rule.target span.target) with
  | some rule => rule.level.allows span.level
  | none => false

end Table

/-- Whether a directive is about a span: its target, its name and the field it asks for. -/
def Directive.concerns (d : Directive) (span : SpanSite) : Bool :=
  coversTarget d.target span.target && d.span.all (· = span.name) &&
    d.field.all fun field => (span.fields.map Prod.fst).contains field.name

/-- Whether the value that a directive asks for is the one that a span has. -/
def Directive.valueMatches (d : Directive) (span : SpanSite) : Bool :=
  match d.field with
  | none => true
  | some field =>
      match field.value with
      | none => true
      | some (.word n) => span.fields.contains (field.name, n)
      | some .other => false

/-- Two directives that ask for the same; the later one counts. -/
def Directive.sameScope (a b : Directive) : Bool :=
  a.target = b.target ∧ a.span = b.span ∧ a.field = b.field

/-- Directives without those that are given again later. -/
def latest : List Directive → List Directive
  | [] => []
  | d :: rest => if rest.any d.sameScope then latest rest else d :: latest rest

namespace Table

/-- The directives that are about a span. -/
def concerning (table : Table) (span : SpanSite) : List Directive :=
  (latest table.dynamics).filter fun d => d.concerns span

/-- Whether a span is kept track of. -/
def tracksSpan (table : Table) (span : SpanSite) : Bool :=
  table.ceiling.allows span.level &&
    (!(table.concerning span).isEmpty || table.rulesAllowSpan span)

/-- The level that is let through inside a span by the directives about it. -/
def scopeLevel (table : Table) (span : SpanSite) : Level :=
  loudest (((table.concerning span).filter fun d => d.valueMatches span).map Directive.level)

/-- Whether an event is let through that happens outside of all spans. -/
def allowsEvent (table : Table) (event : EventSite) : Bool :=
  table.ceiling.allows event.level && table.rulesAllow event

/-- Whether an event is let through that happens inside a span. -/
def allowsEventIn (table : Table) (span : SpanSite) (event : EventSite) : Bool :=
  table.ceiling.allows event.level &&
    (table.rulesAllow event ||
      (table.tracksSpan span && (table.scopeLevel span).allows event.level))

end Table

end QueryLabel.Filter
