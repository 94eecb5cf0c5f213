import Mathlib.Data.List.GetD
import SqlTree.Proofs.LinkLabels
import SqlTree.Proofs.NumeralText
import SqlTree.Proofs.SketchDrawing

/-!
# What a digraph tells

The text of a graph consists of lines: one for each box, one for each link, and a few for each
cluster. This file reads them back, and finds that the text tells everything about the graph,
whatever stands in its labels:

* `Graph.label?` -- a label up to its closing quote; `Graph.label?_escapeLabel`, an escaped label
  holds no such quote itself;
* `Line`, `Line.read?` -- the lines of a digraph, and what a text begins with;
* `Line.read?_text` -- every line is read back, with anything behind it;
* `Graph.lines`, `Graph.ofLines` -- the lines of a graph, and the graph that lines tell;
* `Graph.Worded` -- the labels of links and the colours of clusters are words of fixed lists;
* `Graph.dot_determines` -- the main statement.
-/

namespace SqlTree

/-! ## 1. Labels -/

namespace Graph

/-- One character of a label. -/
def escapeChar : Char → List Char
  | '\\' => ['\\', '\\']
  | '\x22' => ['\\', '\x22']
  | '\n' => ['\\', 'n']
  | c => [c]

theorem toList_escapeLabel (s : String) :
    (escapeLabel s).toList = s.toList.flatMap escapeChar := by
  rw [escapeLabel, String.toList_ofList]
  rfl

/-- A label up to the quote that closes it, and what stands behind that. A backslash stands for the
    character behind it, or for a line feed. -/
def label? : List Char → Option (List Char × List Char)
  | [] => none
  | [c] => if c = '\x22' then some ([], []) else none
  | c :: d :: rest =>
    if c = '\x22' then some ([], d :: rest)
    else if c = '\\' then
      (label? rest).map (Prod.map ((if d = 'n' then '\n' else d) :: ·) id)
    else (label? (d :: rest)).map (Prod.map (c :: ·) id)

theorem label?_close (rest : List Char) : label? ('\x22' :: rest) = some ([], rest) := by
  cases rest <;> rfl

theorem label?_plain {c : Char} (hquote : c ≠ '\x22') (hescape : c ≠ '\\') (rest : List Char) :
    label? (c :: rest) = (label? rest).map (Prod.map (c :: ·) id) := by
  cases rest with
  | nil => exact if_neg hquote
  | cons d rest => rw [label?, if_neg hquote, if_neg hescape]

/-- One escaped character is read back. -/
theorem label?_escapeChar (c : Char) (rest : List Char) :
    label? (escapeChar c ++ rest) = (label? rest).map (Prod.map (c :: ·) id) := by
  unfold escapeChar
  split
  · rfl
  · rfl
  · rfl
  · next hescape hquote _ => exact label?_plain hquote hescape rest

/-- **An escaped label is passed over**: no quote in it closes it. -/
theorem label?_escapeLabel (s : String) (rest : List Char) :
    label? ((escapeLabel s).toList ++ rest)
      = (label? rest).map (Prod.map (s.toList ++ ·) id) := by
  rw [toList_escapeLabel]
  induction s.toList with
  | nil =>
    show label? rest = _
    cases label? rest <;> rfl
  | cons c cs ih =>
    rw [List.flatMap_cons, List.append_assoc, label?_escapeChar, ih]
    cases label? rest <;> rfl

theorem feed_not_mem_escapeLabel (s : String) : '\n' ∉ (escapeLabel s).toList := by
  rw [toList_escapeLabel, List.mem_flatMap]
  rintro ⟨c, -, hc⟩
  unfold escapeChar at hc
  split at hc
  case h_4 hfeed => exact hfeed (List.mem_singleton.mp hc).symm
  all_goals revert hc; decide

end Graph

/-! ## 2. Lines -/

/-- A line of a digraph, without the line feed behind it. -/
inductive Line where
  | box (number : Nat) (label fill : String)
  | edge (parent child : Nat) (label : String)
  | opening (number : Nat)
  | caption (label : String)
  | dashed
  | outline (color : String)
  | member (number : Nat)
  | closing

namespace Line

open SqlTree.Graph

def text : Line → String
  | .box number label fill =>
    "  n" ++ toString number ++ " [label=" ++ quotedLabel label ++ ", fillcolor="
      ++ quotedLabel fill ++ "];"
  | .edge parent child label =>
    "  n" ++ toString parent ++ " -> n" ++ toString child ++ " [label=" ++ quotedLabel label ++ "];"
  | .opening number => "  subgraph cluster_" ++ toString number ++ " \x7b"
  | .caption label => "    label=" ++ quotedLabel label ++ ";"
  | .dashed => "    style=dashed;"
  | .outline color => "    color=" ++ quotedLabel color ++ ";"
  | .member number => "    n" ++ toString number ++ ";"
  | .closing => "  \x7d"

/-! Readers for the parts of a line. -/

/-- What stands behind a word. -/
def skip? (word : String) (cs : List Char) : Option (List Char) := word.toList.isPrefixOf? cs

/-- A number, and what stands behind it. -/
def number? (cs : List Char) : Option (Nat × List Char) :=
  let (digits, rest) := Numeral.spanDigits cs
  if digits = [] then none else some (Numeral.digitsValue 0 digits, rest)

/-- A label between quotes, and what stands behind it. -/
def quoted? (cs : List Char) : Option (String × List Char) := do
  let cs ← skip? "\x22" cs
  let (label, cs) ← label? cs
  return (String.ofList label, cs)

/-- A box, behind its number. -/
def box? (number : Nat) (cs : List Char) : Option (Line × List Char) := do
  let (label, cs) ← quoted? cs
  let cs ← skip? ", fillcolor=" cs
  let (fill, cs) ← quoted? cs
  let cs ← skip? "];" cs
  return (.box number label fill, cs)

/-- A link, behind the number of its parent. -/
def edge? (parent : Nat) (cs : List Char) : Option (Line × List Char) := do
  let (child, cs) ← number? cs
  let cs ← skip? " [label=" cs
  let (label, cs) ← quoted? cs
  let cs ← skip? "];" cs
  return (.edge parent child label, cs)

/-- A box or a link, behind the mark of a box. -/
def node? (cs : List Char) : Option (Line × List Char) := do
  let (number, cs) ← number? cs
  match skip? " [label=" cs with
  | some cs => box? number cs
  | none => (skip? " -> n" cs).bind (edge? number)

/-- How a line begins, and how to read what stands behind that. -/
def kinds : List (String × (List Char → Option (Line × List Char))) :=
  [("  n", node?),
    ("  subgraph cluster_", fun cs => do
      let (number, cs) ← number? cs
      let cs ← skip? " \x7b" cs
      return (.opening number, cs)),
    ("    label=", fun cs => do
      let (label, cs) ← quoted? cs
      let cs ← skip? ";" cs
      return (.caption label, cs)),
    ("    style=dashed;", fun cs => some (.dashed, cs)),
    ("    color=", fun cs => do
      let (color, cs) ← quoted? cs
      let cs ← skip? ";" cs
      return (.outline color, cs)),
    ("    n", fun cs => do
      let (number, cs) ← number? cs
      let cs ← skip? ";" cs
      return (.member number, cs)),
    ("  \x7d", fun cs => some (.closing, cs))]

/-- The line that a text begins with, and what stands behind it. -/
def read? (cs : List Char) : Option (Line × List Char) :=
  kinds.findSome? fun kind => (skip? kind.1 cs).bind kind.2

/-- Two words differ in some place that both have. -/
def differ (word other : String) : Bool :=
  (word.toList.zip other.toList).any fun pair => pair.1 != pair.2

variable (rest : List Char)

theorem skip?_append (word : String) : skip? word (word.toList ++ rest) = some rest :=
  List.isPrefixOf?_eq_some_iff_append_eq.mpr rfl

/-- Of two words that differ in some place, one cannot be taken for the other. -/
theorem skip?_other {word other : String} (h : differ word other = true) :
    skip? word (other.toList ++ rest) = none := by
  unfold skip?
  unfold differ at h
  revert h
  generalize word.toList = as
  generalize other.toList = bs
  intro h
  induction as generalizing bs with
  | nil => cases h
  | cons a as ih =>
    cases bs with
    | nil => cases h
    | cons b bs =>
      rw [List.cons_append, List.isPrefixOf?]
      by_cases hab : (a == b) = true
      · rw [if_pos hab]
        refine ih bs ?_
        rw [List.zip_cons_cons, List.any_cons, bne, hab] at h
        exact h
      · exact if_neg hab

theorem number?_append (n : Nat) {word : String}
    (h : word.toList.head?.any (fun c => !c.isDigit) = true) :
    number? ((toString n).toList ++ (word.toList ++ rest)) = some (n, word.toList ++ rest) := by
  have hstops : Numeral.Stops (word.toList ++ rest) := by
    cases hword : word.toList with
    | nil =>
      rw [hword] at h
      cases h
    | cons c cs =>
      rw [hword] at h
      exact Numeral.stops_cons (Bool.not_eq_true' _ ▸ h) _
  unfold number?
  rw [Nat.toString_eq_ofList_toDigits, String.toList_ofList,
    Numeral.spanDigits_append (Numeral.isDigit_toDigits n) hstops]
  dsimp only
  rw [if_neg Nat.toDigits_ne_nil, Numeral.digitsValue_toDigits]

theorem quoted?_append (s : String) :
    quoted? ((quotedLabel s).toList ++ rest) = some (s, rest) := by
  have hlabel : label? ((escapeLabel s).toList ++ ("\x22".toList ++ rest))
      = some (s.toList, rest) := by
    have hclose : label? ("\x22".toList ++ rest) = some ([], rest) := label?_close rest
    rw [label?_escapeLabel, hclose]
    exact congrArg (fun cs => some (cs, rest)) (List.append_nil _)
  unfold quoted? quotedLabel
  rw [String.toList_append, String.toList_append, List.append_assoc, List.append_assoc,
    skip?_append]
  simp only [hlabel, Option.bind_eq_bind, Option.bind_some, String.ofList_toList]
  rfl

theorem box?_append (number : Nat) (label fill : String) :
    box? number ((quotedLabel label).toList ++ (", fillcolor=".toList
      ++ ((quotedLabel fill).toList ++ ("];".toList ++ rest))))
      = some (.box number label fill, rest) := by
  simp only [box?, quoted?_append, skip?_append, Option.bind_eq_bind, Option.bind_some]
  rfl

theorem edge?_append (parent child : Nat) (label : String) :
    edge? parent ((toString child).toList ++ (" [label=".toList
      ++ ((quotedLabel label).toList ++ ("];".toList ++ rest))))
      = some (.edge parent child label, rest) := by
  rw [edge?, number?_append _ _ (by decide)]
  simp only [quoted?_append, skip?_append, Option.bind_eq_bind, Option.bind_some]
  rfl

theorem node?_box (number : Nat) (cs : List Char) :
    node? ((toString number).toList ++ (" [label=".toList ++ cs)) = box? number cs := by
  rw [node?, number?_append _ _ (by decide)]
  simp only [skip?_append, Option.bind_eq_bind, Option.bind_some]

theorem node?_edge (number : Nat) (cs : List Char) :
    node? ((toString number).toList ++ (" -> n".toList ++ cs)) = edge? number cs := by
  have hother : skip? " [label=" (" -> n".toList ++ cs) = none := skip?_other _ (by decide)
  rw [node?, number?_append _ _ (by decide)]
  simp only [hother, skip?_append, Option.bind_eq_bind, Option.bind_some]

/-- A line is of the first kind with its beginning. -/
theorem read?_kind (i : Nat) {word : String} {behind : List Char → Option (Line × List Char)}
    {cs : List Char} {line : Line} (hkind : kinds[i]? = some (word, behind))
    (hbefore : (kinds.take i).all (fun kind => differ kind.1 word) = true)
    (hbehind : behind cs = some (line, rest)) :
    read? (word.toList ++ cs) = some (line, rest) := by
  obtain ⟨hi, hkind⟩ := List.getElem?_eq_some_iff.mp hkind
  have hnone : (kinds.take i).findSome?
      (fun kind => (skip? kind.1 (word.toList ++ cs)).bind kind.2) = none := by
    refine List.findSome?_eq_none_iff.mpr fun kind hmem => ?_
    rw [skip?_other cs (List.all_eq_true.mp hbefore kind hmem)]
    rfl
  have hsplit : kinds = kinds.take i ++ (word, behind) :: kinds.drop (i + 1) := by
    rw [← hkind, ← List.drop_eq_getElem_cons hi, List.take_append_drop]
  have hfound : (skip? word (word.toList ++ cs)).bind behind = some (line, rest) := by
    rw [skip?_append, Option.bind_some, hbehind]
  rw [read?, hsplit, List.findSome?_append, hnone, List.findSome?_cons, hfound]
  rfl

/-- **Every line is read back**, with anything behind it. -/
theorem read?_text (line : Line) : read? (line.text.toList ++ rest) = some (line, rest) := by
  cases line with
  | box number label fill =>
    delta text
    simp only [String.toList_append, List.append_assoc]
    exact read?_kind rest 0 rfl rfl ((node?_box _ _).trans (box?_append rest number label fill))
  | edge parent child label =>
    delta text
    simp only [String.toList_append, List.append_assoc]
    exact read?_kind rest 0 rfl rfl ((node?_edge _ _).trans (edge?_append rest parent child label))
  | opening number =>
    delta text
    simp only [String.toList_append, List.append_assoc]
    refine read?_kind rest 1 rfl (by decide) ?_
    rw [number?_append _ _ (by decide)]
    simp only [skip?_append, Option.bind_eq_bind, Option.bind_some]
    rfl
  | caption label =>
    delta text
    simp only [String.toList_append, List.append_assoc]
    refine read?_kind rest 2 rfl (by decide) ?_
    simp only [quoted?_append, skip?_append, Option.bind_eq_bind, Option.bind_some]
    rfl
  | dashed => exact read?_kind rest 3 rfl (by decide) rfl
  | outline color =>
    delta text
    simp only [String.toList_append, List.append_assoc]
    refine read?_kind rest 4 rfl (by decide) ?_
    simp only [quoted?_append, skip?_append, Option.bind_eq_bind, Option.bind_some]
    rfl
  | member number =>
    delta text
    simp only [String.toList_append, List.append_assoc]
    refine read?_kind rest 5 rfl (by decide) ?_
    rw [number?_append _ _ (by decide)]
    simp only [skip?_append, Option.bind_eq_bind, Option.bind_some]
    rfl
  | closing => exact read?_kind rest 6 rfl (by decide) rfl

theorem feed_not_mem_toString (n : Nat) : '\n' ∉ (toString n).toList := by
  rw [Nat.toString_eq_ofList_toDigits, String.toList_ofList]
  intro hmem
  have hdigit := Numeral.isDigit_toDigits n _ hmem
  revert hdigit
  decide

theorem feed_not_mem_quotedLabel (s : String) : '\n' ∉ (quotedLabel s).toList := by
  rw [quotedLabel, String.toList_append, String.toList_append, List.mem_append, List.mem_append]
  rintro ((h | h) | h)
  · revert h; decide
  · exact feed_not_mem_escapeLabel s h
  · revert h; decide

/-- **A line has no line feed in it**, whatever it says. -/
theorem feed_not_mem_text (line : Line) : '\n' ∉ line.text.toList := by
  cases line <;> delta text <;>
    simp only [String.toList_append, List.mem_append, not_or, feed_not_mem_toString,
      feed_not_mem_quotedLabel, not_false_eq_true, and_true] <;>
    decide

/-- A line with the line feed behind it. -/
def written (line : Line) : String := line.text ++ "\n"

theorem toList_written (line : Line) : line.written.toList = line.text.toList ++ ['\n'] :=
  String.toList_append

/-- **Lines one after the other are told by their text.** -/
theorem eq_of_join_written_eq : ∀ {ls ls' : List Line},
    String.join (ls.map written) = String.join (ls'.map written) → ls = ls' := by
  have hchars : ∀ ls : List Line, (String.join (ls.map written)).toList
      = ls.flatMap fun line => line.text.toList ++ ['\n'] := by
    intro ls
    rw [String.toList_join, List.flatMap_map]
    exact List.flatMap_congr fun line _ => line.toList_written
  have hlines : ∀ {ls ls' : List Line},
      (ls.flatMap fun line => line.text.toList ++ ['\n'])
        = (ls'.flatMap fun line => line.text.toList ++ ['\n']) → ls = ls' := by
    intro ls
    induction ls with
    | nil =>
      intro ls' h
      cases ls' with
      | nil => rfl
      | cons line rest => simp at h
    | cons line rest ih =>
      intro ls' h
      cases ls' with
      | nil => simp at h
      | cons line' rest' =>
        -- the first line of either text is what is read first
        rw [List.flatMap_cons, List.flatMap_cons, List.append_assoc, List.append_assoc] at h
        have hread := congrArg read? h
        rw [read?_text, read?_text] at hread
        obtain ⟨rfl, hbehind⟩ := Prod.mk.inj (Option.some.inj hread)
        rw [ih (List.append_cancel_left hbehind)]
  intro ls ls' h
  have hjoin := congrArg String.toList h
  rw [hchars, hchars] at hjoin
  exact hlines hjoin

end Line

/-! ## 3. The lines of a graph -/

def Cluster.lines (number : Nat) (c : Cluster) : List Line :=
  [Line.opening number, Line.caption c.label, Line.dashed, Line.outline c.color]
    ++ c.members.map Line.member ++ [Line.closing]

/-- The fill that a word names. -/
def Fill.ofWord (word : String) : Fill :=
  ([.lightblue, .lightyellow, .white, .lightpink, .lightgreen, .lightgrey].find?
    fun fill => fill.word == word).getD .white

theorem Fill.ofWord_word (fill : Fill) : Fill.ofWord fill.word = fill := by cases fill <;> decide

namespace Graph

def lines (g : Graph) : List Line :=
  g.boxes.zipIdx.map (fun (b, i) => Line.box i b.label b.fill.word)
    ++ g.edges.map (fun e => Line.edge e.parent e.child e.label)
    ++ g.clusters.zipIdx.flatMap fun (c, i) => c.lines i

/-- What one line adds to the graph of the lines behind it, and to the cluster that it stands in. -/
def addLine (line : Line) (told : Cluster × Graph) : Cluster × Graph :=
  match line with
  | .box _ label fill =>
    (told.1, { told.2 with boxes := ⟨label, Fill.ofWord fill⟩ :: told.2.boxes })
  | .edge parent child label =>
    (told.1, { told.2 with edges := ⟨parent, child, label⟩ :: told.2.edges })
  | .opening _ => (told.1, { told.2 with clusters := told.1 :: told.2.clusters })
  | .caption label => ({ told.1 with label := label }, told.2)
  | .dashed => told
  | .outline color => ({ told.1 with color := color }, told.2)
  | .member number => ({ told.1 with members := number :: told.1.members }, told.2)
  | .closing => (⟨"", "", []⟩, told.2)

/-- The graph that lines tell. -/
def ofLines (ls : List Line) : Graph := (ls.foldr addLine (⟨"", "", []⟩, {})).2

theorem foldr_members (members : List Nat) (c : Cluster) (g : Graph) :
    (members.map Line.member).foldr addLine (c, g)
      = ({ c with members := members ++ c.members }, g) := by
  induction members with
  | nil => rfl
  | cons m rest ih => rw [List.map_cons, List.foldr_cons, ih]; rfl

theorem foldr_clusterLines (number : Nat) (c : Cluster) (told : Cluster × Graph) :
    (c.lines number).foldr addLine told
      = (c, { told.2 with clusters := c :: told.2.clusters }) := by
  rw [Cluster.lines, List.foldr_append, List.foldr_append]
  show List.foldr addLine (List.foldr addLine (⟨"", "", []⟩, told.2) (c.members.map Line.member))
    [.opening number, .caption c.label, .dashed, .outline c.color] = _
  rw [foldr_members, List.append_nil]
  rfl

theorem foldr_clusters (cs : List Cluster) (start : Nat) (told : Cluster × Graph) :
    (((cs.zipIdx start).flatMap fun (c, i) => c.lines i).foldr addLine told).2
      = { told.2 with clusters := cs ++ told.2.clusters } := by
  induction cs generalizing start with
  | nil => rfl
  | cons c rest ih =>
    rw [List.zipIdx_cons, List.flatMap_cons, List.foldr_append, foldr_clusterLines, ih]
    rfl

theorem foldr_edges (es : List Edge) (told : Cluster × Graph) :
    ((es.map fun e => Line.edge e.parent e.child e.label).foldr addLine told).2
      = { told.2 with edges := es ++ told.2.edges } := by
  induction es with
  | nil => rfl
  | cons e rest ih =>
    exact congrArg (fun g : Graph => { g with edges := e :: g.edges }) ih

theorem foldr_boxes (bs : List Box) (start : Nat) (told : Cluster × Graph) :
    (((bs.zipIdx start).map fun (b, i) => Line.box i b.label b.fill.word).foldr addLine told).2
      = { told.2 with boxes := bs ++ told.2.boxes } := by
  induction bs generalizing start with
  | nil => rfl
  | cons b rest ih =>
    have hline : ∀ told : Cluster × Graph, (addLine (.box start b.label b.fill.word) told).2
        = { told.2 with boxes := b :: told.2.boxes } := by
      intro told
      show { told.2 with boxes := ⟨b.label, Fill.ofWord b.fill.word⟩ :: told.2.boxes } = _
      rw [Fill.ofWord_word]
    exact (hline _).trans
      (congrArg (fun g : Graph => { g with boxes := b :: g.boxes }) (ih (start + 1)))

/-- **The lines of a graph tell what it shows.** -/
theorem ofLines_lines (g : Graph) :
    ofLines g.lines = { boxes := g.boxes, edges := g.edges, clusters := g.clusters } := by
  unfold ofLines lines
  rw [List.foldr_append, List.foldr_append, foldr_boxes, foldr_edges, foldr_clusters]
  simp

theorem boxLine_eq (i : Nat) (b : Box) :
    boxLine i b = (Line.box i b.label b.fill.word).written := by
  have hfill : escapeLabel b.fill.word = b.fill.word := by
    cases b.fill <;> rfl
  delta Line.written Line.text
  unfold boxLine boxName quotedLabel
  refine String.toList_inj.mp ?_
  simp only [hfill, String.toList_append, List.append_assoc]
  rfl

theorem edgeLine_eq {e : Edge} (h : escapeLabel e.label = e.label) :
    edgeLine e = (Line.edge e.parent e.child e.label).written := by
  delta Line.written Line.text
  unfold edgeLine boxName quotedLabel
  refine String.toList_inj.mp ?_
  simp only [h, String.toList_append, List.append_assoc]
  rfl

theorem clusterLines_eq (number : Nat) {c : Cluster} (h : escapeLabel c.color = c.color) :
    clusterLines number c = String.join ((c.lines number).map Line.written) := by
  have hmembers : (c.members.map fun m => "    " ++ boxName m ++ ";\n")
      = (c.members.map Line.member).map Line.written := by
    rw [List.map_map]
    refine List.map_congr_left fun m _ => ?_
    delta Line.written Line.text
    unfold boxName
    refine String.toList_inj.mp ?_
    simp only [Function.comp_apply, String.toList_append, List.append_assoc]
    rfl
  unfold clusterLines Cluster.lines
  rw [hmembers, List.map_append, List.map_append, String.join_append, String.join_append]
  generalize String.join ((c.members.map Line.member).map Line.written) = members
  simp only [List.map_cons, List.map_nil, String.join_cons, String.join_nil]
  delta Line.written Line.text
  unfold quotedLabel
  refine String.toList_inj.mp ?_
  simp only [h, String.toList_append, List.append_assoc]
  rfl

end Graph

/-! ## 4. The text of a graph -/

namespace Graph

/-- The labels of links and the colours of clusters are words of fixed lists. -/
structure Worded (g : Graph) : Prop where
  edges : ∀ e ∈ g.edges, e.label ∈ linkLabels
  clusters : ∀ c ∈ g.clusters, c.color ∈ colors

theorem nextColor_mem (g : Graph) : g.nextColor ∈ colors := by
  have hindex : g.clusters.length % colors.length < colors.length := Nat.mod_lt _ (by decide)
  unfold nextColor
  rw [List.getD_eq_getElem _ _ hindex]
  exact List.getElem_mem hindex

theorem Worded.visit {g : Graph} (h : g.Worded) (n : Node) : (g.visit n).2.Worded where
  edges e he := by
    rw [edges_visit] at he
    rcases List.mem_append.mp he with he | he
    · exact h.edges e he
    · exact n.worded_sketch.mem_linkLabels _ e he
  clusters := by
    rw [visit_eq]
    exact h.clusters

theorem Worded.credit {g : Graph} (h : g.Worded) (a : Attribution) : (g.credit a).Worded := by
  unfold Graph.credit
  dsimp only
  split
  · exact h
  · refine ⟨h.edges, fun c hc => ?_⟩
    rcases List.mem_append.mp hc with hc | hc
    · exact h.clusters c hc
    · obtain rfl := List.mem_singleton.mp hc
      exact g.nextColor_mem

/-- **Every graph that drawing leads to** has words of these lists. -/
theorem Reached.worded {g : Graph} (h : g.Reached) : g.Worded := by
  have hfresh : ({} : Graph).Worded := ⟨(fun e he => by cases he), fun c hc => by cases hc⟩
  induction h with
  | fresh => exact hfresh
  | visit _ n ih => exact ih.visit n
  | attributed n attributions =>
    have hcredits : ∀ g : Graph, g.Worded → (attributions.foldl Graph.credit g).Worded := by
      induction attributions with
      | nil => exact fun g hg => hg
      | cons a rest ih => exact fun g hg => ih _ (hg.credit a)
    exact hcredits _ (hfresh.visit n)

/-- What stands before the lines of every graph. -/
def heading : String :=
  "digraph AST \x7b\n  rankdir=TB;\n"
    ++ "  node [shape=box, style=filled, fontname=\x22Helvetica\x22];\n"

theorem join_clusterLines {cs : List Cluster} (h : ∀ c ∈ cs, escapeLabel c.color = c.color)
    (start : Nat) : String.join ((cs.zipIdx start).map fun (c, i) => clusterLines i c)
      = String.join (((cs.zipIdx start).flatMap fun (c, i) => c.lines i).map Line.written) := by
  induction cs generalizing start with
  | nil => rfl
  | cons c rest ih =>
    obtain ⟨hc, hrest⟩ := List.forall_mem_cons.mp h
    rw [List.zipIdx_cons, List.map_cons, String.join_cons, List.flatMap_cons, List.map_append,
      String.join_append, ih hrest]
    exact congrArg (· ++ _) (clusterLines_eq start hc)

/-- The text of a graph is that of its lines. -/
theorem Worded.dot_eq {g : Graph} (h : g.Worded) :
    g.dot = heading ++ String.join (g.lines.map Line.written) ++ "\x7d\n" := by
  have hplain : ∀ label ∈ linkLabels, escapeLabel label = label := by decide
  have hcolors : ∀ color ∈ colors, escapeLabel color = color := by decide
  have hboxes : (g.boxes.zipIdx.map fun (b, i) => boxLine i b)
      = (g.boxes.zipIdx.map fun (b, i) => Line.box i b.label b.fill.word).map Line.written := by
    rw [List.map_map]
    exact List.map_congr_left fun (b, i) _ => boxLine_eq i b
  have hedges : g.edges.map edgeLine
      = (g.edges.map fun e => Line.edge e.parent e.child e.label).map Line.written := by
    rw [List.map_map]
    exact List.map_congr_left fun e he => edgeLine_eq (hplain _ (h.edges e he))
  have hclusters := join_clusterLines (fun c hc => hcolors _ (h.clusters c hc)) 0
  unfold dot lines
  rw [hboxes, hedges, hclusters, List.map_append, List.map_append, String.join_append,
    String.join_append]
  simp only [String.append_assoc]
  rfl

/-- **A digraph tells everything about its graph.** Reading an escaped label never meets a closing
    quote, and behind the label it goes on with what stands there; no line feed is in it. So the
    text of a graph consists of one line for each box, one for each link and a few for each cluster,
    without a line feed in any of them; and two graphs with the same text have the same boxes, links
    and clusters, whatever trees were drawn and whatever names were credited. -/
theorem dot_determines {g g' : Graph} (h : g.Reached) (h' : g'.Reached) :
    (∀ (s : String) (rest : List Char), label? ((escapeLabel s).toList ++ '\x22' :: rest)
        = some (s.toList, rest) ∧ label? (escapeLabel s).toList = none
          ∧ '\n' ∉ (escapeLabel s).toList)
      ∧ g.dot = heading ++ String.join (g.lines.map fun line => line.text ++ "\n") ++ "\x7d\n"
      ∧ (∀ line ∈ g.lines, '\n' ∉ line.text.toList)
      ∧ (g.dot = g'.dot → g.boxes = g'.boxes ∧ g.edges = g'.edges ∧ g.clusters = g'.clusters) := by
  refine ⟨fun s rest => ⟨?_, ?_, feed_not_mem_escapeLabel s⟩, h.worded.dot_eq,
    fun line _ => line.feed_not_mem_text, fun hdot => ?_⟩
  · rw [label?_escapeLabel, label?_close]
    exact congrArg (fun cs => some (cs, rest)) (List.append_nil _)
  · have hend := label?_escapeLabel s []
    rwa [List.append_nil] at hend
  · rw [h.worded.dot_eq, h'.worded.dot_eq] at hdot
    have hjoin := String.append_right_inj _ |>.mp (String.append_left_inj _ |>.mp hdot)
    have hlines : ofLines g.lines = ofLines g'.lines :=
      congrArg ofLines (Line.eq_of_join_written_eq hjoin)
    rw [ofLines_lines, ofLines_lines, Graph.mk.injEq] at hlines
    obtain ⟨hboxes, hedges, hclusters, -⟩ := hlines
    exact ⟨hboxes, hedges, hclusters⟩

/-- Two tables. -/
def twoTables : Graph := ((({} : Graph).visit ⟨.table "a"⟩).2.visit ⟨.table "b"⟩).2

/-- One table, whose name goes on as the text of two tables does. -/
def forgedTable : Graph :=
  (({} : Graph).visit ⟨.table ("a\x22, fillcolor=\x22lightblue\x22];\n"
    ++ "  n1 [label=\x22Table\nb")⟩).2

/-- The name stays one label in one line, and the graphs are told apart. -/
theorem dot_determines_forgedTable :
    twoTables.Reached ∧ forgedTable.Reached
      ∧ forgedTable.dot = heading
        ++ "  n0 [label=\x22Table\\na\\\x22, fillcolor=\\\x22lightblue\\\x22];\\n"
        ++ "  n1 [label=\\\x22Table\\nb\x22, fillcolor=\x22lightblue\x22];\n\x7d\n"
      ∧ twoTables.dot ≠ forgedTable.dot := by
  have htables : twoTables.Reached := (Reached.fresh.visit _).visit _
  have hforged : forgedTable.Reached := Reached.fresh.visit _
  obtain ⟨-, -, -, hboxes⟩ := dot_determines htables hforged
  refine ⟨htables, hforged, by decide +kernel, fun hdot => ?_⟩
  exact absurd (congrArg List.length (hboxes hdot).1) (by decide)

end Graph
end SqlTree
