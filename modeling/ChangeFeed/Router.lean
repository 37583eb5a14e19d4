import ChangeFeed.Record.Kind
import ChangeFeed.Text.Blank
import ChangeFeed.Text.Segment

/-!
# Routing source tables to kinds

A source is named by a bare table, a qualified one or a topic. Only the segment behind the last dot
counts, without regard to the case of ASCII letters. A router knows the table names of every kind
and any number of aliases; an alias goes before the built-in names and before older aliases.
-/

namespace ChangeFeed

/-- The segment of a source that routing looks at, in lower case. -/
def tableOf (source : String) : String :=
  .ofList (Text.lowerAscii (Text.lastSegment '.' (Text.trim source.toList)))

/-- The kind that has a table among its own names. -/
def Kind.ofTable? (table : String) : Option Kind :=
  Kind.all.find? fun kind => table ∈ kind.tableNames

/-- The aliases that are known besides the built-in names, the latest first. -/
structure Router where
  aliases : List (String × Kind)

namespace Router

/-- The router without aliases. -/
def builtIn : Router :=
  ⟨[]⟩

/-- Adds a name for a kind; only its last segment matters. -/
def withAlias (router : Router) (table : String) (kind : Kind) : Router :=
  ⟨(tableOf table, kind) :: router.aliases⟩

/-- Adds names in order. -/
def withAliases (router : Router) (aliases : List (String × Kind)) : Router :=
  aliases.foldl (fun r (table, kind) => r.withAlias table kind) router

/-- The kind that a source is routed to. -/
def route? (router : Router) (source : String) : Option Kind :=
  match router.aliases.lookup (tableOf source) with
  | some kind => some kind
  | none => Kind.ofTable? (tableOf source)

end Router

end ChangeFeed
