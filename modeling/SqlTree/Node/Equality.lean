import SqlTree.Node

/-!
# Equality of trees

Two trees are the same if their forms agree: the same words and names, values that are the same
as values (`Value.same`, so a NaN differs from itself), and children that are the same in turn.
Each clause gets its own `agree`, over any way of comparing children; `Node.same` closes the loop.
-/

namespace SqlTree

variable {ν μ : Type} (r : ν → μ → Bool)

/-! ## 1. Lists and options -/

/-- Lists of the same length that agree item by item. -/
def agreeList : List ν → List μ → Bool
  | [], [] => true
  | a :: as, b :: bs => r a b && agreeList as bs
  | _, _ => false

/-- Both absent, or both present and agreeing. -/
def agreeOption : Option ν → Option μ → Bool
  | none, none => true
  | some a, some b => r a b
  | _, _ => false

/-! ## 2. Clauses -/

def Bound.agree : Bound ν → Bound μ → Bool
  | .unboundedPreceding, .unboundedPreceding => true
  | .preceding a, .preceding b => r a b
  | .currentRow, .currentRow => true
  | .following a, .following b => r a b
  | .unboundedFollowing, .unboundedFollowing => true
  | _, _ => false

def Frame.agree (a : Frame ν) (b : Frame μ) : Bool :=
  a.unit == b.unit && a.start.agree r b.start && agreeOption (Bound.agree r) a.stop b.stop

def Window.agree (a : Window ν) (b : Window μ) : Bool :=
  a.name == b.name && agreeList r a.partition b.partition && agreeList r a.order b.order
    && agreeOption (Frame.agree r) a.frame b.frame

def WindowRef.agree : WindowRef ν → WindowRef μ → Bool
  | .inline a, .inline b => a.agree r b
  | .named a, .named b => a == b
  | _, _ => false

def Branch.agree (a : Branch ν) (b : Branch μ) : Bool :=
  r a.condition b.condition && r a.result b.result

def Assignment.agree (a : Assignment ν) (b : Assignment μ) : Bool :=
  r a.target b.target && r a.value b.value

def Join.agree (a : Join ν) (b : Join μ) : Bool :=
  a.kind == b.kind && r a.right b.right && agreeOption r a.predicate b.predicate
    && a.lateral == b.lateral

def Cte.agree (a : Cte ν) (b : Cte μ) : Bool :=
  a.name == b.name && a.columns == b.columns && r a.query b.query && a.recursive == b.recursive

def ConflictAction.agree : ConflictAction ν → ConflictAction μ → Bool
  | .doNothing, .doNothing => true
  | .doUpdate as ws, .doUpdate bs vs =>
    agreeList (Assignment.agree r) as bs && agreeList r ws vs
  | _, _ => false

def OnConflict.agree (a : OnConflict ν) (b : OnConflict μ) : Bool :=
  agreeList r a.columns b.columns && a.action.agree r b.action

/-! ## 3. Statements -/

def SetOperation.agree (a : SetOperation ν) (b : SetOperation μ) : Bool :=
  r a.left b.left && a.op == b.op && r a.right b.right && agreeList r a.orders b.orders
    && agreeOption r a.limit b.limit && agreeOption r a.offset b.offset

def Select.agree (a : Select ν) (b : Select μ) : Bool :=
  agreeOption r a.source b.source && agreeList r a.projections b.projections
    && agreeList r a.wheres b.wheres && agreeList (Join.agree r) a.joins b.joins
    && agreeList r a.groups b.groups && agreeList r a.havings b.havings
    && agreeList (Window.agree r) a.windows b.windows && agreeList r a.orders b.orders
    && agreeOption r a.limit b.limit && agreeOption r a.offset b.offset
    && a.distinct == b.distinct && agreeList r a.distinctOn b.distinctOn && a.lock == b.lock
    && a.skipLocked == b.skipLocked && a.comment == b.comment && a.hints == b.hints
    && agreeList (Cte.agree r) a.ctes b.ctes

def Insert.agree (a : Insert ν) (b : Insert μ) : Bool :=
  r a.target b.target && agreeList r a.columns b.columns
    && agreeList (agreeList r) a.rows b.rows && agreeOption r a.select b.select
    && agreeList r a.returning b.returning
    && agreeOption (OnConflict.agree r) a.onConflict b.onConflict

def Update.agree (a : Update ν) (b : Update μ) : Bool :=
  r a.target b.target && agreeList (Assignment.agree r) a.assignments b.assignments
    && agreeList r a.wheres b.wheres && agreeList r a.returning b.returning

def Delete.agree (a : Delete ν) (b : Delete μ) : Bool :=
  r a.target b.target && agreeList r a.wheres b.wheres && agreeList r a.returning b.returning

/-! ## 4. Forms and trees -/

/-- Two forms with the same words whose children agree. -/
def Form.agree : Form ν → Form μ → Bool
  | .table a, .table b => a == b
  | .tableAlias a n, .tableAlias b m => r a b && n == m
  | .column a n t, .column b m u => r a b && n == m && t == u
  | .star a, .star b => agreeOption r a b
  | .literal a, .literal b => a.same b
  | .bind a, .bind b => a.same b
  | .cast a t, .cast b u => a.same b && t == u
  | .raw s as, .raw t bs => s == t && agreeList Value.same as bs
  | .comparison a o b, .comparison c p d => r a c && o == p && r b d
  | .nullTest a o, .nullTest b p => r a b && o == p
  | .and a b, .and c d => r a c && r b d
  | .or a b, .or c d => r a c && r b d
  | .not a, .not b => r a b
  | .grouping a, .grouping b => r a b
  | .membership a as n, .membership b bs m => r a b && agreeList r as bs && n == m
  | .between a l h n, .between b k i m => r a b && r l k && r h i && n == m
  | .existence a n, .existence b m => r a b && n == m
  | .arithmetic a o b, .arithmetic c p d => r a c && o == p && r b d
  | .unary o a, .unary p b => o == p && r a b
  | .call n as d, .call m bs e => n == m && agreeList r as bs && d == e
  | .aggregate f a d p, .aggregate g b e q =>
    f == g && agreeOption r a b && d == e && agreeOption r p q
  | .extract f a, .extract g b => f == g && r a b
  | .ordering a d n, .ordering b e m => r a b && d == e && n == m
  | .window a, .window b => a.agree r b
  | .windowed a v, .windowed b w => r a b && v.agree r w
  | .labelled a n, .labelled b m => r a b && n == m
  | .choice a as o, .choice b bs p =>
    agreeOption r a b && agreeList (Branch.agree r) as bs && agreeOption r o p
  | .groupingSet k as ss, .groupingSet l bs ts =>
    k == l && agreeList r as bs && agreeList (agreeList r) ss ts
  | .setOperation a, .setOperation b => a.agree r b
  | .cte a, .cte b => a.agree r b
  | .assignment a, .assignment b => a.agree r b
  | .join a, .join b => a.agree r b
  | .select a, .select b => a.agree r b
  | .insert a, .insert b => a.agree r b
  | .update a, .update b => a.agree r b
  | .delete a, .delete b => a.agree r b
  | _, _ => false

/-- Equality of trees: the same forms all the way down. -/
def Node.same : Node → Node → Bool :=
  Node.fold fun form other => form.agree (fun child n => child.2 n) other.form

end SqlTree
