import SqlTree.Proofs.Answers
import SqlTree.Proofs.ParameterTrace

/-!
# Reading back what was quoted

Names and text literals stand between quotes, and a quote inside them is written twice. This file
reads them back with anything behind them, and finds that nothing is lost and that nothing of what
follows is taken:

* `Text.inside?`, `Text.unquote?` -- the text between quotes at the beginning of another one, by
  the two conventions that dialects have for backslashes;
* `Text.inside?_doubled`, `Text.inside?_stringBody` -- what was doubled, and what was escaped, is
  read up to the quote behind it;
* `Value.unquote?_inline` -- a literal by either convention;
* `Text.names?`, `Text.names?_chain` -- quoted names with a point between each two;
* `Text.quoted_append_inj` -- a quoted name at the end of a text can be told from what stands
  before it;
* `Session.render_references` -- tables, aliases and columns can be read back.
-/

namespace SqlTree

namespace Text

/-! ## 1. Texts between quotes -/

/-- The text up to the closing quote, and what stands behind that. A quote written twice is one
    quote of the text; where backslashes escape, each stands for the character behind it. -/
def inside? (quote : Char) (escapes : Bool) : List Char → Option (List Char × List Char)
  | [] => none
  | [c] => if c = quote then some ([], []) else none
  | c :: d :: rest =>
    if escapes ∧ c = '\\' then (inside? quote escapes rest).map (Prod.map (d :: ·) id)
    else if c ≠ quote then (inside? quote escapes (d :: rest)).map (Prod.map (c :: ·) id)
    else if d = quote then (inside? quote escapes rest).map (Prod.map (quote :: ·) id)
    else some ([], d :: rest)

/-- The text between quotes that another one begins with, and what stands behind it. -/
def unquote? (quote : Char) (escapes : Bool) : List Char → Option (List Char × List Char)
  | [] => none
  | c :: rest => if c = quote then inside? quote escapes rest else none

variable {quote c : Char} {escapes : Bool} {rest : List Char}

theorem inside?_escaped (quote c : Char) (rest : List Char) :
    inside? quote true ('\\' :: c :: rest)
      = (inside? quote true rest).map (Prod.map (c :: ·) id) := if_pos ⟨rfl, rfl⟩

/-- A quote written twice stands for one. -/
theorem inside?_twice (h : ¬(escapes = true ∧ quote = '\\')) (rest : List Char) :
    inside? quote escapes (quote :: quote :: rest)
      = (inside? quote escapes rest).map (Prod.map (quote :: ·) id) := by
  rw [inside?, if_neg h, if_neg (not_not.mpr rfl), if_pos rfl]

/-- A quote that no second one follows is the end. -/
theorem inside?_close (h : ¬(escapes = true ∧ quote = '\\')) (hrest : rest.head? ≠ some quote) :
    inside? quote escapes (quote :: rest) = some ([], rest) := by
  cases rest with
  | nil => exact if_pos rfl
  | cons d more =>
    have hd : d ≠ quote := fun heq => hrest (congrArg some heq)
    rw [inside?, if_neg h, if_neg (not_not.mpr rfl), if_neg hd]

theorem inside?_plain (h : ¬(escapes = true ∧ c = '\\')) (hc : c ≠ quote) (rest : List Char) :
    inside? quote escapes (c :: rest)
      = (inside? quote escapes rest).map (Prod.map (c :: ·) id) := by
  cases rest with
  | nil => exact if_neg hc
  | cons d more => rw [inside?, if_neg h, if_pos hc]

/-- **What was doubled is read up to the quote behind it**, if no other quote follows that. -/
theorem inside?_doubled (hrest : rest.head? ≠ some quote) (s : List Char) :
    inside? quote false (doubled quote s ++ quote :: rest) = some (s, rest) := by
  have hescape : ∀ c : Char, ¬(false = true ∧ c = '\\') := fun _ h => absurd h.1 (by decide)
  induction s with
  | nil => exact inside?_close (hescape quote) hrest
  | cons c s ih =>
    unfold doubled
    by_cases hc : c = quote
    · rw [if_pos hc, List.cons_append, List.cons_append, inside?_twice (hescape quote), ih, hc]
      rfl
    · rw [if_neg hc, List.cons_append, inside?_plain (hescape c) hc, ih]
      rfl

/-- **An escaped text is read up to the quote behind it**, where backslashes escape. -/
theorem inside?_stringBody (hrest : rest.head? ≠ some singleQuote) (s : List Char) :
    inside? singleQuote true (stringBody s ++ singleQuote :: rest) = some (s, rest) := by
  have hquote : ¬(true = true ∧ singleQuote = '\\') := by decide
  induction s with
  | nil => exact inside?_close hquote hrest
  | cons c s ih =>
    unfold stringBody
    by_cases hbackslash : c = '\\'
    · rw [if_pos (.inl hbackslash), hbackslash, List.cons_append, List.cons_append,
        inside?_escaped, ih]
      rfl
    · by_cases hc : c = singleQuote
      · rw [if_pos (.inr hc), hc, List.cons_append, List.cons_append, inside?_twice hquote, ih]
        rfl
      · rw [if_neg (not_or.mpr ⟨hbackslash, hc⟩), List.cons_append,
          inside?_plain (fun h => hbackslash h.2) hc, ih]
        rfl

/-- To escape a text is to double its backslashes and then its quotes. -/
theorem stringBody_eq (s : List Char) : stringBody s = doubled singleQuote (doubled '\\' s) := by
  have hquote : '\\' ≠ singleQuote := by decide
  induction s with
  | nil => rfl
  | cons c s ih =>
    by_cases hbackslash : c = '\\'
    · subst hbackslash
      simp [stringBody, doubled, hquote, ih]
    · by_cases hc : c = singleQuote
      · subst hc
        simp [stringBody, doubled, hquote.symm, ih]
      · simp [stringBody, doubled, hbackslash, hc, ih]

theorem unquote?_quoted (hrest : rest.head? ≠ some quote) (s : List Char) :
    unquote? quote false (quoted quote s ++ rest) = some (s, rest) := by
  show (if quote = quote then inside? quote false (doubled quote s ++ [quote] ++ rest)
    else none) = _
  rw [if_pos rfl, List.append_assoc]
  exact inside?_doubled hrest s

end Text

/-! ## 2. Literals -/

namespace Value

theorem toList_inline_text (s : String) : (text s).inline.toList
    = Text.singleQuote :: (Text.stringBody s.toList ++ [Text.singleQuote]) := by
  show ("\x27" ++ Text.escapeString s ++ "\x27").toList = _
  unfold Text.escapeString
  simp only [String.toList_append, String.toList_ofList]
  rfl

/-- **A text literal is read back.** With anything behind it that is no single quote, it is read up
    to its last character and no further, by either convention: where backslashes escape, as the
    text, and where they do not, as the text with each backslash twice. So no two texts have the
    same literal. -/
theorem unquote?_inline :
    (∀ (s : String) (rest : List Char), rest.head? ≠ some Text.singleQuote →
        Text.unquote? Text.singleQuote true ((text s).inline.toList ++ rest)
            = some (s.toList, rest)
          ∧ Text.unquote? Text.singleQuote false ((text s).inline.toList ++ rest)
            = some (Text.doubled '\\' s.toList, rest))
      ∧ Function.Injective fun s : String => (text s).inline := by
  have hread : ∀ (s : String) (rest : List Char), rest.head? ≠ some Text.singleQuote →
      Text.unquote? Text.singleQuote true ((text s).inline.toList ++ rest)
        = some (s.toList, rest) := by
    intro s rest hrest
    rw [toList_inline_text, List.cons_append, List.append_assoc]
    exact Text.inside?_stringBody hrest s.toList
  refine ⟨fun s rest hrest => ⟨hread s rest hrest, ?_⟩, fun s t h => ?_⟩
  · rw [toList_inline_text, Text.stringBody_eq]
    exact Text.unquote?_quoted hrest _
  · have hs := hread s [] (by decide)
    rw [show (text s).inline = (text t).inline from h, hread t [] (by decide)] at hs
    exact String.toList_inj.mp (Prod.mk.inj (Option.some.inj hs)).1.symm

/-- A text that ends in a backslash and a quote, with another literal behind it. -/
theorem unquote?_inline_pathAndQuote :
    Text.unquote? Text.singleQuote true
        ((text "C:\\\x27").inline.toList ++ ", \x27x\x27".toList)
      = some ("C:\\\x27".toList, ", \x27x\x27".toList)
    ∧ Text.unquote? Text.singleQuote false
        ((text "C:\\\x27").inline.toList ++ ", \x27x\x27".toList)
      = some ("C:\\\\\x27".toList, ", \x27x\x27".toList) :=
  unquote?_inline.1 "C:\\\x27" ", \x27x\x27".toList (by decide)

end Value

/-! ## 3. Names with points between them -/

namespace Text

variable {quote : Char} {escapes : Bool} {text name s rest : List Char}

theorem length_lt_of_inside? (h : inside? quote escapes text = some (s, rest)) :
    rest.length < text.length := by
  fun_induction inside? quote escapes text generalizing s with
  | case1 => cases h
  | case2 =>
    obtain ⟨-, rfl⟩ := Prod.mk.inj (Option.some.inj h)
    exact Nat.zero_lt_one
  | case3 c hc => cases h
  | case4 c d more hescape ih =>
    obtain ⟨⟨inner, _⟩, hinner, heq⟩ := Option.map_eq_some_iff.mp h
    obtain ⟨-, rfl⟩ := Prod.mk.inj heq
    exact Nat.lt_succ_of_lt (Nat.lt_succ_of_lt (ih hinner))
  | case5 c d more hescape hc ih =>
    obtain ⟨⟨inner, _⟩, hinner, heq⟩ := Option.map_eq_some_iff.mp h
    obtain ⟨-, rfl⟩ := Prod.mk.inj heq
    exact Nat.lt_succ_of_lt (ih hinner)
  | case6 c more hescape hc ih =>
    obtain ⟨⟨inner, _⟩, hinner, heq⟩ := Option.map_eq_some_iff.mp h
    obtain ⟨-, rfl⟩ := Prod.mk.inj heq
    exact Nat.lt_succ_of_lt (Nat.lt_succ_of_lt (ih hinner))
  | case7 c d more hescape hc hd =>
    obtain ⟨-, rfl⟩ := Prod.mk.inj (Option.some.inj h)
    exact Nat.lt_succ_self _

/-- What stands behind a text between quotes is shorter than all of it. -/
theorem length_lt_of_unquote? (h : unquote? quote escapes text = some (s, rest)) :
    rest.length < text.length := by
  cases text with
  | nil => cases h
  | cons c more =>
    by_cases hc : c = quote
    · exact Nat.lt_succ_of_lt (length_lt_of_inside? ((if_pos hc).symm.trans h))
    · cases (if_neg hc).symm.trans h

/-- Quoted names with a point between each two, and what stands behind them. -/
def names? (quote : Char) (text : List Char) : Option (List (List Char) × List Char) :=
  match h : unquote? quote false text with
  | none => none
  | some (name, '.' :: more) =>
    have : more.length < text.length := Nat.lt_of_succ_lt (length_lt_of_unquote? h)
    (names? quote more).map (Prod.map (name :: ·) id)
  | some (name, rest) => some ([name], rest)
termination_by text.length

/-- A point behind a name says that another one follows. -/
theorem names?_point (h : unquote? quote false text = some (name, '.' :: rest)) :
    names? quote text = (names? quote rest).map (Prod.map (name :: ·) id) := by
  rw [names?]
  split
  case h_1 hnone =>
    rw [h] at hnone
    cases hnone
  case h_2 hpoint =>
    rw [h] at hpoint
    cases hpoint
    rfl
  case h_3 hno hsome =>
    rw [h] at hsome
    cases hsome
    exact (hno rest rfl).elim

/-- Without a point behind it a name is the last one. -/
theorem names?_last (h : unquote? quote false text = some (name, rest))
    (hrest : rest.head? ≠ some '.') : names? quote text = some ([name], rest) := by
  rw [names?]
  split
  case h_1 hnone =>
    rw [h] at hnone
    cases hnone
  case h_2 hpoint =>
    rw [h] at hpoint
    cases hpoint
    exact absurd rfl hrest
  case h_3 hsome =>
    rw [h] at hsome
    cases hsome
    rfl

/-- **Quoted names with points between them are read one by one**, if neither a quote nor a point
    follows. -/
theorem names?_chain (hpoint : quote ≠ '.') (hquote : rest.head? ≠ some quote)
    (hrest : rest.head? ≠ some '.') : ∀ {names : List (List Char)}, names ≠ [] →
      names? quote (['.'].intercalate (names.map (quoted quote)) ++ rest) = some (names, rest)
  | [name], _ => by
    rw [List.map_singleton, List.intercalate_singleton]
    exact names?_last (unquote?_quoted hquote name) hrest
  | name :: next :: more, _ => by
    have ih := names?_chain hpoint hquote hrest (List.cons_ne_nil next more)
    have hbehind : ('.' :: (['.'].intercalate ((next :: more).map (quoted quote)) ++ rest)).head?
        ≠ some quote := fun h => hpoint (Option.some.inj h).symm
    have hfirst := unquote?_quoted hbehind name
    rw [List.map_cons, List.map_cons, List.intercalate_cons_cons, List.append_assoc,
      List.append_assoc]
    rw [List.map_cons] at ih hfirst
    rw [List.singleton_append, names?_point hfirst, ih]
    rfl

/-! ## 4. Names without their quotes -/

/-- From left to right, each two quotes side by side become one. -/
def undoubled (quote : Char) : List Char → List Char
  | [] => []
  | [c] => [c]
  | c :: d :: rest =>
    if c = quote ∧ d = quote then quote :: undoubled quote rest
    else c :: undoubled quote (d :: rest)

theorem undoubled_doubled (quote : Char) (s : List Char) :
    undoubled quote (doubled quote s) = s := by
  induction s with
  | nil => rfl
  | cons c s ih =>
    unfold doubled
    by_cases hc : c = quote
    · rw [if_pos hc, undoubled, if_pos ⟨rfl, rfl⟩, ih, hc]
    · rw [if_neg hc]
      cases hrest : doubled quote s with
      | nil =>
        rw [hrest] at ih
        rw [← ih]
        rfl
      | cons d rest =>
        rw [hrest] at ih
        rw [undoubled, if_neg fun h => hc h.1, ih]

/-- **A quoted name is the name** once its outer quotes are gone and the others are no longer
    written twice. -/
theorem undoubled_quoted (quote : Char) (name : List Char) :
    undoubled quote (quoted quote name).tail.dropLast = name := by
  show undoubled quote (doubled quote name ++ [quote]).dropLast = name
  rw [List.dropLast_concat]
  exact undoubled_doubled quote name

theorem doubled_append (quote : Char) (s t : List Char) :
    doubled quote (s ++ t) = doubled quote s ++ doubled quote t := by
  induction s with
  | nil => rfl
  | cons c s ih =>
    rw [List.cons_append, doubled, doubled, ih]
    split <;> rfl

/-- Read backwards, a quoted name is a quoted name. -/
theorem reverse_quoted (quote : Char) (name : List Char) :
    (quoted quote name).reverse = quoted quote name.reverse := by
  have hdoubled : (doubled quote name).reverse = doubled quote name.reverse := by
    induction name with
    | nil => rfl
    | cons c name ih =>
      rw [doubled, List.reverse_cons, doubled_append, ← ih, doubled]
      split <;> simp [doubled]
  unfold quoted
  rw [List.reverse_cons, List.reverse_concat, hdoubled, List.cons_append]

/-- **A quoted name at the end of a text, behind a blank, can be told from what stands before it**:
    it is read from behind. -/
theorem quoted_append_inj (hquote : quote ≠ ' ') {x y m n : List Char}
    (h : x ++ ' ' :: quoted quote m = y ++ ' ' :: quoted quote n) : x = y ∧ m = n := by
  have hread : ∀ x m : List Char, unquote? quote false (x ++ ' ' :: quoted quote m).reverse
      = some (m.reverse, ' ' :: x.reverse) := by
    intro x m
    have hblank : (' ' :: x.reverse).head? ≠ some quote := fun h => hquote (Option.some.inj h).symm
    have hsplit : (x ++ ' ' :: quoted quote m).reverse
        = quoted quote m.reverse ++ ' ' :: x.reverse := by
      rw [List.reverse_append, List.reverse_cons, reverse_quoted, List.append_assoc]
      rfl
    rw [hsplit]
    exact unquote?_quoted hblank m.reverse
  have heq := hread x m
  rw [h, hread y n] at heq
  obtain ⟨hname, hfront⟩ := Prod.mk.inj (Option.some.inj heq)
  exact ⟨(List.reverse_inj.mp (List.cons.inj hfront).2).symm, (List.reverse_inj.mp hname).symm⟩

end Text

/-! ## 5. Tables, columns and aliases -/

/-- The names that a table or a column is written with. -/
def Node.dotted? : Node → Option (List String)
  | ⟨.table name⟩ => some [name]
  | ⟨.column relation name _⟩ => some (relation.relationName?.toList ++ [name])
  | _ => none

namespace Dialect

variable (d : Dialect)

theorem toList_quote (name : String) :
    (d.quote name).toList = Text.quoted d.quoteMark name.toList := String.toList_ofList

/-- Neither a point nor a blank is a quote. -/
theorem quoteMark_ne : d.quoteMark ≠ '.' ∧ d.quoteMark ≠ ' ' := by cases d <;> decide

/-- Quoted names with points between them are read back. -/
theorem names?_quote {names : List String} (hne : names ≠ []) {rest : List Char}
    (hquote : rest.head? ≠ some d.quoteMark) (hpoint : rest.head? ≠ some '.') :
    Text.names? d.quoteMark ((".".intercalate (names.map d.quote)).toList ++ rest)
      = some (names.map String.toList, rest) := by
  have hchain : (".".intercalate (names.map d.quote)).toList
      = ['.'].intercalate ((names.map String.toList).map (Text.quoted d.quoteMark)) := by
    rw [String.toList_intercalate, List.map_map, List.map_map]
    exact congrArg _ (List.map_congr_left fun name _ => d.toList_quote name)
  rw [hchain]
  exact Text.names?_chain d.quoteMark_ne.1 hquote hpoint fun h => hne (List.map_eq_nil_iff.mp h)

end Dialect

namespace Session

/-- A text that binds nothing leaves the session as it is. -/
theorem write_of_bindings_eq_nil {d : Doc} (hfault : d.fault? = none) (hbindings : d.bindings = [])
    (s : Session) : s.write d = .ok (s.renderer.spelling.spell d s.index, s) := by
  unfold write
  rw [hfault, hbindings, List.append_nil, ite_self]

/-- **A table or a column is written as its names**, quoted, with a point between each two. -/
theorem render_dotted {n : Node} {names : List String} (h : n.dotted? = some names)
    (s : Session) :
    s.render n = .ok (".".intercalate (names.map s.renderer.dialect.quote), s) := by
  obtain ⟨form⟩ := n
  cases form with
  | table name =>
    obtain rfl := Option.some.inj h
    have hdoc : (Node.mk (.table name)).doc s.renderer.layout = .name name := Node.doc_mk _ _
    unfold render
    rw [hdoc, write_of_bindings_eq_nil rfl rfl]
    rfl
  | column relation name typeName =>
    obtain rfl := Option.some.inj h
    have hdoc : (Node.mk (.column relation name typeName)).doc s.renderer.layout
        = Render.qualified relation.relationName? (.name name) := Node.doc_mk _ _
    unfold render
    rw [hdoc]
    cases relation.relationName? with
    | none =>
      rw [write_of_bindings_eq_nil rfl rfl]
      rfl
    | some first =>
      rw [write_of_bindings_eq_nil rfl rfl]
      rfl
  | _ => cases h

/-- A name behind a text is written behind it, quoted. -/
theorem write_append_name (s : Session) (d : Doc) (name : String) :
    s.write (d ++ " " ++ .name name)
      = (s.write d).map fun (text, s') => (text ++ " " ++ s.renderer.dialect.quote name, s') := by
  have hfault : (d ++ " " ++ Doc.name name : Doc).fault? = d.fault? := by
    show (d.fault?.or none).or none = d.fault?
    rw [Option.or_none, Option.or_none]
  have hbindings : (d ++ " " ++ Doc.name name : Doc).bindings = d.bindings := by
    show d.bindings ++ [] ++ [] = d.bindings
    rw [List.append_nil, List.append_nil]
  unfold write
  rw [hfault, hbindings]
  cases d.fault? <;> rfl

/-- A relation under another name is written with that name behind a blank. -/
theorem toList_render_tableAlias {s s' : Session} {relation : Node} {name text : String}
    (h : s.render ⟨.tableAlias relation name⟩ = .ok (text, s')) :
    ∃ part, s.operand relation = .ok (part, s') ∧ text.toList
      = part.toList ++ ' ' :: Text.quoted s.renderer.dialect.quoteMark name.toList := by
  have hdoc : (Node.mk (.tableAlias relation name)).doc s.renderer.layout
      = Render.operand (s.child relation) ++ " " ++ .name name := Node.doc_mk _ _
  unfold render at h
  rw [hdoc, write_append_name] at h
  obtain ⟨⟨part, _⟩, hpart, heq⟩ := exists_of_map_eq_ok h
  obtain ⟨rfl, rfl⟩ := Prod.mk.inj heq
  refine ⟨part, hpart, ?_⟩
  rw [String.toList_append, String.toList_append, Dialect.toList_quote, List.append_assoc]
  rfl

/-- A table or a column is no query: as an operand it is written as it is. -/
theorem operand_dotted {n : Node} {names : List String} (h : n.dotted? = some names)
    (s : Session) : s.operand n = s.render n := by
  obtain ⟨form⟩ := n
  cases form with
  | table name => rfl
  | column relation name typeName => rfl
  | _ => cases h

/-- **References are read back.** In every dialect quoted names with points between them are read as
    these names, with anything behind them that is neither a quote nor a point, and a quoted name
    is the name once its outer quotes are gone and the others no longer written twice. Tables and
    columns are rendered as such names, so they can be read back and told apart. An alias can be
    told from the relation before it, and if that is a table or a column, so can its names. -/
theorem render_references (s : Session) :
    (∀ names : List String, names ≠ [] → ∀ rest : List Char,
        rest.head? ≠ some s.renderer.dialect.quoteMark → rest.head? ≠ some '.' →
        Text.names? s.renderer.dialect.quoteMark
            ((".".intercalate (names.map s.renderer.dialect.quote)).toList ++ rest)
          = some (names.map String.toList, rest))
      ∧ (∀ name : String, Text.undoubled s.renderer.dialect.quoteMark
          (s.renderer.dialect.quote name).toList.tail.dropLast = name.toList)
      ∧ (∀ n names, n.dotted? = some names → ∃ text, s.render n = .ok (text, s)
          ∧ ∀ rest : List Char, rest.head? ≠ some s.renderer.dialect.quoteMark →
            rest.head? ≠ some '.' →
            Text.names? s.renderer.dialect.quoteMark (text.toList ++ rest)
              = some (names.map String.toList, rest))
      ∧ (∀ n n' names names' text t t', n.dotted? = some names → n'.dotted? = some names' →
          s.render n = .ok (text, t) → s.render n' = .ok (text, t') → names = names')
      ∧ ∀ relation relation' name name' text t t',
          s.render ⟨.tableAlias relation name⟩ = .ok (text, t) →
          s.render ⟨.tableAlias relation' name'⟩ = .ok (text, t') →
          name = name' ∧ (∃ part, s.operand relation = .ok (part, t)
              ∧ s.operand relation' = .ok (part, t'))
            ∧ ∀ names names', relation.dotted? = some names → relation'.dotted? = some names' →
              names = names' := by
  have hchain := fun (names : List String) (hne : names ≠ []) (rest : List Char) =>
    @Dialect.names?_quote s.renderer.dialect names hne rest
  have hne : ∀ {n : Node} {names}, n.dotted? = some names → names ≠ [] := by
    rintro ⟨form⟩ names h rfl
    cases form <;> simp [Node.dotted?] at h
  have hinj : ∀ n n' names names' text t t', n.dotted? = some names → n'.dotted? = some names' →
      s.render n = .ok (text, t) → s.render n' = .ok (text, t') → names = names' := by
    intro n n' names names' text t t' hn hn' h h'
    rw [render_dotted hn] at h
    rw [render_dotted hn', ← (Prod.mk.inj (Except.ok.inj h)).1] at h'
    have hread := hchain names (hne hn) [] (by simp) (by simp)
    rw [← (Prod.mk.inj (Except.ok.inj h')).1, hchain names' (hne hn') [] (by simp) (by simp)]
      at hread
    exact (List.map_injective_iff.mpr (fun _ _ => String.toList_inj.mp)
      (Prod.mk.inj (Option.some.inj hread)).1).symm
  refine ⟨hchain, fun name => ?_, fun n names hn => ?_, hinj, ?_⟩
  · rw [Dialect.toList_quote]
    exact Text.undoubled_quoted _ _
  · exact ⟨_, render_dotted hn s, hchain names (hne hn)⟩
  · intro relation relation' name name' text t t' h h'
    obtain ⟨part, hpart, htext⟩ := toList_render_tableAlias h
    obtain ⟨part', hpart', htext'⟩ := toList_render_tableAlias h'
    obtain ⟨hparts, hnames⟩ := Text.quoted_append_inj s.renderer.dialect.quoteMark_ne.2
      (htext.symm.trans htext')
    obtain rfl := String.toList_inj.mp hparts
    refine ⟨String.toList_inj.mp hnames, ⟨part, hpart, hpart'⟩, fun names names' hn hn' => ?_⟩
    rw [operand_dotted hn] at hpart
    rw [operand_dotted hn'] at hpart'
    exact hinj relation relation' names names' part t t' hn hn' hpart hpart'

/-- A column of an alias, with names that look like the ends of names and the points between. -/
def tickedColumn : Node :=
  ⟨.column ⟨.tableAlias ⟨.table "t"⟩ "a\x60.\x60"⟩ "\x60b" none⟩

/-- It is read back in front of a comparison. -/
theorem render_references_tickedColumn :
    ∃ text, (Session.mk ⟨.mysql, .oneLine, true⟩ []).render tickedColumn
        = .ok (text, Session.mk ⟨.mysql, .oneLine, true⟩ [])
      ∧ Text.names? '\x60' (text.toList ++ " = 1".toList)
        = some (["a\x60.\x60".toList, "\x60b".toList], " = 1".toList) := by
  obtain ⟨text, h, hread⟩ :=
    (render_references (Session.mk ⟨.mysql, .oneLine, true⟩ [])).2.2.1 tickedColumn _ rfl
  exact ⟨text, h, hread _ (by decide) (by decide)⟩

end Session
end SqlTree
