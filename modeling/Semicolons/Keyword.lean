/-!
# Keywords

The twenty-five reserved words of the Go language, with the group each belongs to and whether a
statement can end on it. `Keyword.all` lists them in the order in which they are presented.
-/

namespace Semicolons

/-- A reserved word. -/
inductive Keyword where
  | const
  | func
  | «import»
  | package
  | type
  | var
  | chan
  | interface
  | map
  | struct
  | «break»
  | case
  | «continue»
  | default
  | defer
  | «else»
  | fallthrough
  | «for»
  | go
  | goto
  | «if»
  | range
  | «return»
  | select
  | switch
  deriving DecidableEq, Repr

namespace Keyword

/-- What a keyword introduces. -/
inductive Category where
  | declaration
  | compositeType
  | controlFlow
  deriving DecidableEq, Repr

/-- The name of a category. -/
def Category.name : Category → String
  | .declaration => "Declaration"
  | .compositeType => "CompositeType"
  | .controlFlow => "ControlFlow"

/-- Every keyword, grouped by category and alphabetical inside a group. -/
def all : List Keyword :=
  [.const, .func, .import, .package, .type, .var,
   .chan, .interface, .map, .struct,
   .break, .case, .continue, .default, .defer, .else, .fallthrough, .for, .go, .goto, .if,
   .range, .return, .select, .switch]

/-- The word as it is written in a source text. -/
def spelling : Keyword → String
  | .const => "const"
  | .func => "func"
  | .import => "import"
  | .package => "package"
  | .type => "type"
  | .var => "var"
  | .chan => "chan"
  | .interface => "interface"
  | .map => "map"
  | .struct => "struct"
  | .break => "break"
  | .case => "case"
  | .continue => "continue"
  | .default => "default"
  | .defer => "defer"
  | .else => "else"
  | .fallthrough => "fallthrough"
  | .for => "for"
  | .go => "go"
  | .goto => "goto"
  | .if => "if"
  | .range => "range"
  | .return => "return"
  | .select => "select"
  | .switch => "switch"

/-- The name under which a keyword appears in a token listing. -/
def name : Keyword → String
  | .const => "Const"
  | .func => "Func"
  | .import => "Import"
  | .package => "Package"
  | .type => "Type"
  | .var => "Var"
  | .chan => "Chan"
  | .interface => "Interface"
  | .map => "Map"
  | .struct => "Struct"
  | .break => "Break"
  | .case => "Case"
  | .continue => "Continue"
  | .default => "Default"
  | .defer => "Defer"
  | .else => "Else"
  | .fallthrough => "Fallthrough"
  | .for => "For"
  | .go => "Go"
  | .goto => "Goto"
  | .if => "If"
  | .range => "Range"
  | .return => "Return"
  | .select => "Select"
  | .switch => "Switch"

/-- The group a keyword belongs to. -/
def category : Keyword → Category
  | .const | .func | .import | .package | .type | .var => .declaration
  | .chan | .interface | .map | .struct => .compositeType
  | _ => .controlFlow

/-- The keywords that can be the last token of a statement. -/
def endsStatement : Keyword → Bool
  | .break | .continue | .fallthrough | .return => true
  | _ => false

/-- The keyword that a word spells, if it is reserved. Case matters. -/
def ofSpelling? (word : String) : Option Keyword :=
  all.find? (·.spelling == word)

theorem mem_all (k : Keyword) : k ∈ all := by
  cases k <;> decide

/-- Looking up a keyword's own spelling finds that keyword, so no two share one. -/
theorem ofSpelling?_spelling (k : Keyword) : ofSpelling? k.spelling = some k := by
  cases k <;> rfl

/-- A word is reserved exactly when it is the spelling of the keyword that is found. -/
theorem ofSpelling?_eq_some_iff {word : String} {k : Keyword} :
    ofSpelling? word = some k ↔ k.spelling = word := by
  constructor
  · intro h
    simpa using List.find?_some h
  · rintro rfl
    exact ofSpelling?_spelling k

end Keyword

end Semicolons
