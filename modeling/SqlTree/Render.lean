import SqlTree.Layout
import SqlTree.Node.Relation

/-!
# The text of a tree

`Node.doc` turns a tree into text, bottom up: each form is put together from the texts of its
children. Three positions look at the child itself:

* an operand that is a query stands in parentheses (`operand`);
* an operand of arithmetic that is arithmetic itself does too (`arithmeticOperand`), so no
  precedence is ever needed;
* a column in a column list is written without its relation (`unqualified`).
-/

namespace SqlTree.Render

/-- A child of a form: the node and its text. -/
abbrev Child := Node × Doc

/-! ## 1. Children in their positions -/

/-- A child where an expression stands: a query is put in parentheses. -/
def operand (c : Child) : Doc := if c.1.isQuery then .paren c.2 else c.2

/-- A child of an arithmetic operator. -/
def arithmeticOperand (c : Child) : Doc :=
  match c.1.form with
  | .arithmetic .. => .paren c.2
  | .unary .. => .paren c.2
  | _ => operand c

/-- A column without its relation. -/
def unqualified (c : Child) : Doc :=
  match c.1.form with
  | .column _ name _ => .name name
  | _ => c.2

/-- Texts with a comma between each two. -/
def commas (items : List Doc) : Doc := Doc.join ", " items

/-- The texts of children with a comma between each two. -/
def list (children : List Child) : Doc := commas (children.map (·.2))

/-- Predicates of which all must hold. -/
def conjunction (children : List Child) : Doc := Doc.join " AND " (children.map (·.2))

/-- A column list. -/
def columnList (columns : List Child) : Doc := .paren (commas (columns.map unqualified))

/-- One row of values. -/
def valuesRow (row : List Child) : Doc := .paren (commas (row.map operand))

/-- A keyword, or nothing. -/
def keyword (present : Bool) (word : String) : Doc := if present then word else Doc.empty

/-! ## 2. Windows -/

def bound (b : Bound Child) : Doc :=
  match b.offset? with
  | some offset => offset.2 ++ " " ++ b.word
  | none => b.word

def frame (f : Frame Child) : Doc :=
  match f.stop with
  | some stop => f.unit.word ++ " BETWEEN " ++ bound f.start ++ " AND " ++ bound stop
  | none => f.unit.word ++ " " ++ bound f.start

/-- The inside of a window. -/
def windowBody (w : Window Child) : Doc :=
  Doc.join " " <|
    (if w.partition.isEmpty then [] else ["PARTITION BY " ++ list w.partition])
      ++ (if w.order.isEmpty then [] else ["ORDER BY " ++ list w.order])
      ++ (w.frame.map frame).toList

/-- A window, with its name if it has one. -/
def window (w : Window Child) : Doc :=
  match w.name with
  | some name => .name name ++ " AS " ++ .paren (windowBody w)
  | none => .paren (windowBody w)

def windowRef : WindowRef Child → Doc
  | .inline w => .paren (windowBody w)
  | .named name => .name name

/-! ## 3. Pieces of statements -/

def branch (b : Branch Child) : Doc :=
  " WHEN " ++ operand b.condition ++ " THEN " ++ operand b.result

/-- A column, which keeps its relation, and its new value. -/
def assignment (a : Assignment Child) : Doc := a.target.2 ++ " = " ++ operand a.value

/-- A joined relation. A verbatim join is only its text. -/
def join (j : Join Child) : Doc :=
  match j.kind with
  | .verbatim => j.right.2
  | kind =>
    kind.word ++ keyword j.lateral " LATERAL" ++ " " ++ operand j.right
      ++ Doc.after " ON " (j.predicate.map (·.2))

def cte (c : Cte Child) : Doc :=
  .name c.name
    ++ (if c.columns.isEmpty then Doc.empty
        else " " ++ .paren (commas (c.columns.map Doc.name)))
    ++ " AS " ++ .paren c.query.2

/-- The named queries in front of a statement. -/
def withClause? (ctes : List (Cte Child)) : Option Doc :=
  if ctes.isEmpty then none
  else
    let word := if ctes.any (·.recursive) then "WITH RECURSIVE " else "WITH "
    some (word ++ commas (ctes.map cte))

def onConflict (c : OnConflict Child) : Doc :=
  let columns := if c.columns.isEmpty then Doc.empty else " " ++ columnList c.columns
  "ON CONFLICT" ++ columns ++
    match c.action with
    | .doNothing => " DO NOTHING"
    | .doUpdate assignments wheres =>
      " DO UPDATE SET " ++ commas (assignments.map assignment)
        ++ (if wheres.isEmpty then Doc.empty else " WHERE " ++ conjunction wheres)

/-! ## 4. Statements as sections -/

/-- A section for a list of children, unless the list is empty. -/
def itemsOf (heading : String) (separator : Separator) (children : List Child) : List Section :=
  if children.isEmpty then [] else [.items heading separator (children.map (·.2))]

/-- A section for one child behind a keyword, if there is one. -/
def lineOf (heading : String) (child : Option Doc) : List Section :=
  (child.map fun d => Section.line (heading ++ d)).toList

/-- A SELECT up to its projections. -/
def selectHead (s : Select Child) : Doc :=
  "SELECT"
    ++ (if s.hints.isEmpty then Doc.empty else " " ++ .comment "/*+" (" ".intercalate s.hints))
    ++ (if s.distinctOn.isEmpty then keyword s.distinct " DISTINCT"
        else " DISTINCT ON " ++ .paren (list s.distinctOn))

/-- The lock of a SELECT. -/
def lockClause? (s : Select Child) : Option Doc :=
  s.lock.map fun mode => mode.word ++ keyword s.skipLocked " SKIP LOCKED"

def selectSections (s : Select Child) : List Section :=
  ((withClause? s.ctes).map Section.line).toList
    ++ (s.comment.map fun text => Section.line (.comment "/*" text)).toList
    ++ [if s.projections.isEmpty then .line (selectHead s ++ " *")
        else .items (selectHead s) .comma (s.projections.map (·.2))]
    ++ lineOf "FROM " (s.source.map operand)
    ++ s.joins.map (fun j => .line (join j))
    ++ itemsOf "WHERE" .conjunction s.wheres
    ++ itemsOf "GROUP BY" .comma s.groups
    ++ itemsOf "HAVING" .conjunction s.havings
    ++ (if s.windows.isEmpty then [] else [.items "WINDOW" .comma (s.windows.map window)])
    ++ itemsOf "ORDER BY" .comma s.orders
    ++ lineOf "LIMIT " (s.limit.map (·.2))
    ++ lineOf "OFFSET " (s.offset.map (·.2))
    ++ ((lockClause? s).map Section.line).toList

def setOperationSections (s : SetOperation Child) : List Section :=
  [.block s.left.2, .line s.op.word, .block s.right.2]
    ++ itemsOf "ORDER BY" .comma s.orders
    ++ lineOf "LIMIT " (s.limit.map (·.2))
    ++ lineOf "OFFSET " (s.offset.map (·.2))

/-- The rows of an INSERT: a query, the rows given, or the defaults. -/
def insertSource (s : Insert Child) : Section :=
  match s.select with
  | some query => .line query.2
  | none =>
    if s.rows.isEmpty then .line "DEFAULT VALUES"
    else .items "VALUES" .comma (s.rows.map valuesRow)

def insertSections (s : Insert Child) : List Section :=
  let columns := if s.columns.isEmpty then Doc.empty else " " ++ columnList s.columns
  [.line ("INSERT INTO " ++ s.target.2 ++ columns), insertSource s]
    ++ (s.onConflict.map fun c => Section.line (onConflict c)).toList
    ++ itemsOf "RETURNING" .comma s.returning

def updateSections (s : Update Child) : List Section :=
  [.line ("UPDATE " ++ s.target.2), .items "SET" .comma (s.assignments.map assignment)]
    ++ itemsOf "WHERE" .conjunction s.wheres
    ++ itemsOf "RETURNING" .comma s.returning

def deleteSections (s : Delete Child) : List Section :=
  [.line ("DELETE FROM " ++ s.target.2)]
    ++ itemsOf "WHERE" .conjunction s.wheres
    ++ itemsOf "RETURNING" .comma s.returning

/-! ## 5. Expressions -/

/-- A name, qualified by that of its relation if the relation has one. -/
def qualified (relation : Option String) (d : Doc) : Doc :=
  match relation with
  | some name => .name name ++ "." ++ d
  | none => d

/-- Membership. In no list nothing holds, and then the operand is not written. -/
def membership (c : Child) (values : List Child) (negated : Bool) : Doc :=
  match values with
  | [] => if negated then "1=1" else "1=0"
  | [single] => operand c ++ (if negated then " NOT IN " else " IN ") ++ .paren single.2
  | values =>
    operand c ++ (if negated then " NOT IN " else " IN ") ++ .paren (commas (values.map operand))

def aggregate (func : AggregateFunc) (argument : Option Child) (distinct : Bool)
    (filter : Option Child) : Doc :=
  let range : Doc := (argument.map (·.2)).getD "*"
  func.word ++ .paren (keyword distinct "DISTINCT " ++ range)
    ++ Doc.after " FILTER " (filter.map fun c => .paren ("WHERE " ++ c.2))

def ordering (c : Child) (direction : Direction) (nulls : NullPlacement) : Doc :=
  operand c ++ " " ++ direction.word ++ keyword (nulls != .unstated) (" " ++ nulls.word)

def choice (c : Option Child) (branches : List (Branch Child)) (otherwise : Option Child) : Doc :=
  "CASE" ++ Doc.after " " (c.map operand) ++ Doc.join Doc.empty (branches.map branch)
    ++ Doc.after " ELSE " (otherwise.map operand) ++ " END"

/-- A construct over several groupings: sets for GROUPING SETS, columns for the other two. -/
def groupingSet (kind : GroupingKind) (columns : List Child) (sets : List (List Child)) : Doc :=
  match kind with
  | .groupingSets => kind.word ++ .paren (commas (sets.map fun set => .paren (list set)))
  | kind => kind.word ++ .paren (list columns)

/-- The text of a form from the texts of its children. -/
def formDoc (layout : Layout) : Form Child → Doc
  | .table name => .name name
  | .tableAlias relation name => operand relation ++ " " ++ .name name
  | .column relation name _ => qualified relation.1.relationName? (.name name)
  | .star relation => qualified (relation.bind (·.1.relationName?)) "*"
  | .literal v => .value v
  | .bind v => .value v
  | .cast v typeName => "CAST" ++ .paren (.value v ++ " AS " ++ .bare .type typeName)
  | .raw sql binds => .raw sql binds
  | .comparison left op right => .comparison op (operand left) (operand right)
  | .nullTest c op => operand c ++ " " ++ op.word
  | .and left right => left.2 ++ " AND " ++ right.2
  | .or left right => left.2 ++ " OR " ++ right.2
  | .not c => "NOT " ++ .paren c.2
  | .grouping c => .paren c.2
  | .membership c values negated => membership c values negated
  | .between c low high negated =>
    operand c ++ (if negated then " NOT BETWEEN " else " BETWEEN ") ++ operand low ++ " AND "
      ++ operand high
  | .existence query negated => (if negated then "NOT EXISTS " else "EXISTS ") ++ .paren query.2
  | .arithmetic left op right =>
    arithmeticOperand left ++ " " ++ op.word ++ " " ++ arithmeticOperand right
  | .unary op c => op.word ++ arithmeticOperand c
  | .call name arguments distinct =>
    .bare .function name ++ .paren (keyword distinct "DISTINCT " ++ list arguments)
  | .aggregate func argument distinct filter => aggregate func argument distinct filter
  | .extract field c => "EXTRACT" ++ .paren (field.word ++ " FROM " ++ c.2)
  | .ordering c direction nulls => ordering c direction nulls
  | .window w => window w
  | .windowed c w => c.2 ++ " OVER " ++ windowRef w
  | .labelled c name => operand c ++ " AS " ++ .name name
  | .choice c branches otherwise => choice c branches otherwise
  | .groupingSet kind columns sets => groupingSet kind columns sets
  | .setOperation s => layout.statement (setOperationSections s)
  | .cte c => cte c
  | .assignment a => assignment a
  | .join j => join j
  | .select s => layout.statement (selectSections s)
  | .insert s => layout.statement (insertSections s)
  | .update s => layout.statement (updateSections s)
  | .delete s => layout.statement (deleteSections s)

end Render

namespace Node

/-- The text of a tree in a layout. -/
def doc (layout : Layout) : Node → Doc := fold (Render.formDoc layout)

/-- A tree with its text, as a child of a form. -/
def rendered (layout : Layout) (n : Node) : Render.Child := (n, n.doc layout)

end Node
end SqlTree
