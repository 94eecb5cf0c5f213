import SqlTree.Proofs.ParameterTrace
import SqlTree.Proofs.Tokens

/-!
# Placeholders and parameters

A database matches the placeholders that it reads in a text with the parameters that it is given.
This file shows that the two fit, although names and comments may contain anything:

* `Dialect.placeholderToken`, `Dialect.isPlaceholder` -- the token of a placeholder, and the
  tokens that a database takes for one;
* `Doc.Numbered`, `Doc.Spaced.numbered` -- the placeholders among the tokens of a text are
  numbered on from the parameters before it, one for each value that the text binds;
* `placeholders_render` -- the placeholders that are read in a rendering are those of its
  parameters, in order and without any other.
-/

namespace SqlTree

open Reading

/-! ## 1. The tokens of placeholders -/

namespace Dialect

/-- The token of the placeholder of a position. -/
def placeholderToken : Dialect → Nat → Token
  | .postgres, i => .slot (toString i).toList
  | _, _ => .mark '?'

/-- The tokens that are placeholders. -/
def isPlaceholder : Dialect → Token → Bool
  | .postgres, .slot _ => true
  | .mysql, .mark c => c == '?'
  | .sqlite, .mark c => c == '?'
  | _, _ => false

theorem isPlaceholder_placeholderToken (d : Dialect) (i : Nat) :
    d.isPlaceholder (d.placeholderToken i) = true := by
  cases d <;> rfl

/-- No token of a tame text without question marks is a placeholder. -/
theorem isPlaceholder_of_tame (d : Dialect) {s : List Char} (hs : '?' ∉ s) {t : Token}
    (ht : t.tameIn s) : d.isPlaceholder t = false := by
  cases t with
  | word w => cases d <;> rfl
  | mark c =>
    have hc : c ≠ '?' := by
      rintro rfl
      exact hs ht.1
    cases d with
    | postgres => rfl
    | mysql => exact beq_eq_false_iff_ne.mpr hc
    | sqlite => exact beq_eq_false_iff_ne.mpr hc
  | _ => cases ht

/-- A quiet text holds no placeholder. -/
theorem filter_lex_of_quiet (d : Dialect) (r : Reading) {s : String}
    (hs : s.toList.all isQuiet = true) : (r.lex s).filter d.isPlaceholder = [] := by
  have hquestion : '?' ∉ s.toList := by
    intro hmem
    cases (Bool.and_eq_true_iff.mp (List.all_eq_true.mp hs _ hmem)).2
  refine List.filter_eq_nil_iff.mpr fun t ht => ?_
  rw [d.isPlaceholder_of_tame hquestion ((lex_of_tame r (isTame_of_isQuiet hs)).2 t ht)]
  decide

end Dialect

/-- Digits behind a dollar sign are read with it. -/
theorem read_digits (r : Reading) {ds : List Char} (hds : ∀ c ∈ ds, c.isDigit = true) :
    ∀ s : List Char, r.read (.slot s) ds = (.slot (s ++ ds), []) := by
  induction ds with
  | nil =>
    intro s
    rw [List.append_nil]
    rfl
  | cons c rest ih =>
    intro s
    have hstep : r.step (.slot s) c = (.slot (s ++ [c]), []) := if_pos (hds c List.mem_cons_self)
    have hrest := ih (fun a ha => hds a (List.mem_cons_of_mem _ ha)) (s ++ [c])
    rw [read_cons, hstep, hrest, List.append_assoc]
    rfl

theorem start_dollar (r : Reading) : r.start '$' = (.slot [], []) := by
  have hq : ('$' : Char) ≠ r.dialect.quoteMark := by cases r.dialect <;> decide
  have hl : ¬(('$' : Char) = Text.singleQuote ∧ r.literals = true) :=
    fun h => absurd h.1 (by decide)
  unfold start
  rw [if_neg hq, if_neg hl]
  rfl

theorem read_slot (r : Reading) {ds : List Char} (hds : ∀ c ∈ ds, c.isDigit = true) :
    r.read .gap ('$' :: ds) = (.slot ds, []) := by
  have hstep : r.step .gap '$' = (.slot [], []) := start_dollar r
  rw [read_cons, hstep, read_digits r hds]
  rfl

/-- **A placeholder is read as its own token.** -/
theorem read_placeholder (r : Reading) (i : Nat) :
    (r.read .gap (r.dialect.placeholder i).toList).1.settled = true
      ∧ r.lex (r.dialect.placeholder i) = [r.dialect.placeholderToken i] := by
  obtain ⟨dialect, literals⟩ := r
  have hquestion : ∀ d : Dialect, d ≠ .postgres →
      ((Reading.mk d literals).read .gap "?".toList).1.settled = true
        ∧ (Reading.mk d literals).lex "?" = [.mark '?'] := by
    intro d _
    cases d <;> cases literals <;> exact ⟨rfl, rfl⟩
  cases dialect with
  | postgres =>
    have hdigits : ∀ c ∈ (toString i).toList, c.isDigit = true := by
      intro c hc
      rw [Nat.toString_eq_ofList_toDigits, String.toList_ofList] at hc
      exact Nat.isDigit_of_mem_toDigits (by decide) (by decide) hc
    have hread : (Reading.mk .postgres literals).read .gap ("$" ++ toString i).toList
        = (.slot (toString i).toList, []) := by
      rw [String.toList_append]
      exact read_slot _ hdigits
    have hlex : (Reading.mk .postgres literals).lex ("$" ++ toString i)
        = [.slot (toString i).toList] := by
      unfold lex
      rw [hread]
      rfl
    exact ⟨by rw [Dialect.placeholder, hread]; rfl, hlex⟩
  | mysql => exact hquestion .mysql (by decide)
  | sqlite => exact hquestion .sqlite (by decide)

section Parameterised

variable {how : Spelling} {literals : Bool}

/-- With placeholders the token of a value tells nothing about it. -/
theorem Spelling.lex_value (hp : how.parameterise = true) (v : Value) (bound : Nat) :
    ((how.reading literals).read .gap (how.value v bound).toList).1.settled = true
      ∧ (how.reading literals).lex (how.value v bound)
        = if v.isNull then [.word "NULL".toList]
          else [how.dialect.placeholderToken (bound + 1)] := by
  unfold Spelling.value
  cases v.isNull with
  | true =>
    show ((how.reading literals).read .gap "NULL".toList).1.settled = true
      ∧ (how.reading literals).lex "NULL" = [.word "NULL".toList]
    obtain ⟨dialect, parameterise⟩ := how
    cases dialect <;> cases literals <;> exact ⟨rfl, rfl⟩
  | false =>
    rw [hp]
    exact read_placeholder (how.reading literals) (bound + 1)

/-! ## 2. The placeholders of a text -/

/-- What a text may mention if only values bring along placeholders. -/
def Mention.Plain : Mention → Prop
  | .value _ => True
  | .verbatim _ _ => False
  | .bare rule s => rule.accepts s = true

theorem Mention.Plain.legible (hp : how.parameterise = true) {m : Mention} (h : m.Plain) :
    m.Legible how literals := by
  cases m with
  | value v => exact fun bound => (Spelling.lex_value hp v bound).1
  | verbatim sql binds => cases h
  | bare rule s => exact legible_bare h

/-- The placeholders of `n` parameters behind `bound` others. -/
def Dialect.placeholdersFrom (d : Dialect) (bound n : Nat) : List Token :=
  (List.range' (bound + 1) n).map d.placeholderToken

theorem Dialect.placeholdersFrom_add (d : Dialect) (bound m n : Nat) :
    d.placeholdersFrom bound (m + n)
      = d.placeholdersFrom bound m ++ d.placeholdersFrom (bound + m) n := by
  have hsplit : List.range' (bound + 1) m ++ List.range' (bound + 1 + m) n
      = List.range' (bound + 1) (m + n) := List.range'_append_1
  unfold placeholdersFrom
  rw [← hsplit, List.map_append, Nat.add_right_comm]

namespace Doc

variable (how literals) in
/-- The placeholders among the tokens of a text are numbered on from the parameters before it, one
    for each value that the text binds. -/
def Numbered (d : Doc) : Prop :=
  ∀ bound, (d.tokens how literals bound).filter how.dialect.isPlaceholder
    = how.dialect.placeholdersFrom bound d.slots

theorem Numbered.append {l r : Doc} (hl : l.Numbered how literals) (hr : r.Numbered how literals) :
    (l ++ r).Numbered how literals := by
  intro bound
  have hslots : (l ++ r).slots = l.slots + r.slots := List.length_append
  show List.filter how.dialect.isPlaceholder (_ ++ _) = _
  rw [hslots, Dialect.placeholdersFrom_add, List.filter_append, hl bound, hr (bound + l.slots)]

theorem numbered_text {s : String} (hs : s.toList.all isQuiet = true) :
    (Doc.text s).Numbered how literals := fun _ => Dialect.filter_lex_of_quiet _ _ hs

/-- **The placeholders of a text whose parts fit are numbered on**, if only values bring along
    placeholders. -/
theorem Spaced.numbered (hp : how.parameterise = true) {inside : Bool} {e e' : Seam} {d : Doc}
    (h : Doc.Spaced .oneLine inside e d e') (hm : ∀ m ∈ d.mentions, m.Plain) :
    d.Numbered how literals := by
  induction h with
  | text h =>
    refine numbered_text (List.all_eq_true.mpr fun c hc => ?_)
    have hfixed := isFixed_of_fixedText h c hc
    refine Bool.and_eq_true_iff.mpr ⟨isTame_of_isFixed hfixed, bne_iff_ne.mpr ?_⟩
    rintro rfl
    cases hfixed
  | or => exact numbered_text rfl
  | operator h =>
    intro bound
    show List.filter how.dialect.isPlaceholder ((how.reading literals).lex _) = []
    obtain ⟨dialect, parameterise⟩ := how
    rcases List.mem_pair.mp h with rfl | rfl <;> cases dialect <;> cases literals <;> rfl
  | name s =>
    intro bound
    show List.filter how.dialect.isPlaceholder [.name s.toList] = []
    cases how.dialect <;> rfl
  | bare h s =>
    rename_i rule
    intro bound
    have haccepts : s.toList.all rule.allows = true :=
      (Bool.and_eq_true_iff.mp (hm _ List.mem_cons_self)).2
    refine Dialect.filter_lex_of_quiet _ _ (List.all_eq_true.mpr fun c hc => ?_)
    have hallows := List.all_eq_true.mp haccepts c hc
    refine Bool.and_eq_true_iff.mpr ⟨isTame_of_allows hallows, bne_iff_ne.mpr ?_⟩
    rintro rfl
    cases rule <;> cases hallows
  | value v =>
    intro bound
    show List.filter how.dialect.isPlaceholder ((how.reading literals).lex (how.value v bound)) = _
    rw [(Spelling.lex_value hp v bound).2]
    unfold Doc.slots Doc.bindings
    cases v.isNull with
    | true => cases how.dialect <;> rfl
    | false => exact List.filter_cons_of_pos (how.dialect.isPlaceholder_placeholderToken _)
  | raw sql binds => exact (hm _ List.mem_cons_self).elim
  | comment h s =>
    intro bound
    show List.filter how.dialect.isPlaceholder [.comment _] = []
    cases how.dialect <;> rfl
  | comparison op hl hr ihl ihr =>
    rename_i l r
    intro bound
    have hleft := ihl (fun m hm' => hm m (List.mem_append_left _ hm')) bound
    have hright := ihr (fun m hm' => hm m (List.mem_append_right _ hm')) (bound + l.slots)
    have hslots : (Doc.comparison op l r).slots = l.slots + r.slots := List.length_append
    have hframe : ∀ s ∈ (how.dialect.comparisonFrame op).texts,
        ((how.reading literals).lex s).filter how.dialect.isPlaceholder = [] := fun s hs =>
      Dialect.filter_lex_of_quiet _ _ ((how.dialect.comparisonFrame_fits op).1 s hs)
    have hbefore := hframe _ List.mem_cons_self
    have hbetween := hframe _ (List.mem_cons_of_mem _ List.mem_cons_self)
    have hafter := hframe _ (List.mem_cons_of_mem _ (List.mem_cons_of_mem _ List.mem_cons_self))
    unfold Doc.tokens
    rw [hslots, Dialect.placeholdersFrom_add]
    simp only [List.filter_append, hleft, hright, hbefore, hbetween, hafter, List.nil_append,
      List.append_nil]
  | paren h ih =>
    intro bound
    have hparen : ∀ c : Char, c ≠ '?' → how.dialect.isPlaceholder (.mark c) = false := by
      intro c hc
      cases how.dialect with
      | postgres => rfl
      | mysql => exact beq_eq_false_iff_ne.mpr hc
      | sqlite => exact beq_eq_false_iff_ne.mpr hc
    have hbody := ih hm bound
    unfold Doc.tokens
    rw [List.filter_cons_of_neg (by rw [hparen '(' (by decide)]; decide), List.filter_append,
      List.filter_cons_of_neg (by rw [hparen ')' (by decide)]; decide), List.filter_nil,
      List.append_nil]
    exact hbody
  | indented hl h _ => cases hl
  | range hw hd hlow ihd ihlow =>
    rename_i word
    simp only [mentions_append, mentions_text, List.append_nil, List.forall_mem_append] at hm
    have hword : (Doc.text word).Numbered how literals := by
      rcases List.mem_pair.mp hw with rfl | rfl
      · exact numbered_text rfl
      · exact numbered_text rfl
    exact (((ihd hm.1).append hword).append (ihlow hm.2)).append (numbered_text rfl)
  | choice hd hb ho ihd ihb iho =>
    simp only [mentions_append, mentions_text, List.append_nil, List.nil_append,
      List.forall_mem_append] at hm
    have hcase : (Doc.text "CASE").Numbered how literals := numbered_text rfl
    exact (((hcase.append (ihd hm.1.1)).append (ihb hm.1.2)).append (iho hm.2)).append
      (numbered_text rfl)
  | append hl hr ihl ihr =>
    exact (ihl fun m hm' => hm m (List.mem_append_left _ hm')).append
      (ihr fun m hm' => hm m (List.mem_append_right _ hm'))

end Doc

end Parameterised

/-! ## 3. The placeholders of a rendering -/

/-- No verbatim SQL is written below a node. -/
def Node.NoVerbatim (t : Node) : Prop :=
  ∀ n ∈ t.visited, ∀ sql binds, n.form ≠ .raw sql binds

/-- A tree without verbatim SQL among its nodes writes none. -/
theorem Node.noVerbatim_of_parts {t : Node} (h : ∀ n ∈ t.parts, n.variant ≠ "Raw") :
    t.NoVerbatim := by
  intro n hn sql binds hform
  refine h n (t.visited_subset hn) ?_
  rw [variant, hform]
  rfl

/-- A tree without verbatim SQL that is not refused mentions only values and valid names. -/
theorem Node.plain_of_fault?_eq_none {t : Node} (ht : t.NoVerbatim) {layout : Layout}
    (hf : (t.doc layout).fault? = none) : ∀ m ∈ (t.doc layout).mentions, m.Plain := by
  intro m hm
  have hfault : m.fault? = none := by
    rw [Doc.fault?_eq] at hf
    exact List.findSome?_eq_none_iff.mp hf m hm
  rw [t.mentions_doc] at hm
  obtain ⟨n, hn, hmention⟩ := List.mem_flatMap.mp hm
  cases m with
  | value v => trivial
  | bare rule s =>
    by_contra hbad
    have hfault' : (Mention.bare rule s).fault? = some (.invalidName rule s) := if_neg hbad
    rw [hfault'] at hfault
    cases hfault
  | verbatim sql binds =>
    have hverbatim := ht n hn
    unfold mentioned at hmention
    cases hform : n.form with
    | raw sql' binds' => exact absurd hform (hverbatim sql' binds')
    | _ =>
      rw [hform] at hmention
      simp [Form.mentioned] at hmention

namespace Session

/-- **Placeholders match the parameters.** A tree without verbatim SQL that a fresh session with
    placeholders renders in a dialect is read, whatever names, comments and hints it holds, with
    exactly the placeholders of its parameters: for PostgreSQL the slots from one to their number,
    in order, for the others as many question marks. It does not matter whether the reader takes
    single quotes for the ends of literals. -/
theorem placeholders_render {dialect : Dialect} {t : Node} {text : String} {s' : Session}
    (ht : t.NoVerbatim)
    (h : (Session.mk ⟨dialect, .oneLine, true⟩ []).render t = .ok (text, s')) (literals : Bool) :
    ((Reading.mk dialect literals).lex text).filter dialect.isPlaceholder
        = (List.range' 1 s'.params.length).map dialect.placeholderToken
      ∧ s'.params = t.collect := by
  obtain ⟨hfault, htext, hs'⟩ := render_eq_ok_iff.mp h
  have hparams : s'.params = t.collect := by
    rw [hs']
    rfl
  have hplain := Node.plain_of_fault?_eq_none ht hfault
  have hslots : (t.doc .oneLine).slots = s'.params.length := by
    rw [hparams, Doc.slots, Node.bindings_doc]
  have hlegible : ∀ m ∈ t.visited.flatMap Node.mentioned,
      m.Legible (Spelling.mk dialect true) literals := by
    intro m hm
    rw [← t.mentions_doc .oneLine] at hm
    exact (hplain m hm).legible rfl
  have hlex : (Reading.mk dialect literals).lex text
      = (t.doc .oneLine).tokens (Spelling.mk dialect true) literals 0 := by
    rw [htext]
    exact Node.lex_spell hlegible 0
  have hnumbered : (t.doc .oneLine).Numbered (Spelling.mk dialect true) literals :=
    (t.spaced_doc .oneLine).numbered rfl hplain
  refine ⟨?_, hparams⟩
  rw [hlex, ← hslots]
  exact hnumbered 0

/-- A query whose names, hints and comment look like placeholders, quotes and ends of comments. -/
def disguisedSelect : Node :=
  ⟨.select
    { source := some ⟨.table "a\x22$1?"⟩
      projections := [⟨.labelled ⟨.bind (.int 1)⟩ "\x60?\x60 */"⟩]
      wheres := [⟨.nullTest ⟨.cast (.text "?") "int"⟩ .isNull⟩]
      comment := some "*/ $1 ?"
      hints := ["$2*", "/"] }⟩

/-- `disguisedSelect` is read with the two placeholders of its parameters. -/
theorem placeholders_render_disguisedSelect :
    ∃ text s', (Session.mk ⟨.postgres, .oneLine, true⟩ []).render disguisedSelect = .ok (text, s')
      ∧ ((Reading.mk .postgres false).lex text).filter Dialect.postgres.isPlaceholder
        = [.slot ['1'], .slot ['2']] := by
  have hverbatim : disguisedSelect.NoVerbatim := Node.noVerbatim_of_parts (by decide)
  have hok : ∃ text s', (Session.mk ⟨.postgres, .oneLine, true⟩ []).render disguisedSelect
      = .ok (text, s') ∧ s'.params.length = 2 := ⟨_, _, rfl, rfl⟩
  obtain ⟨text, s', h, hlen⟩ := hok
  have hread := (placeholders_render hverbatim h false).1
  rw [hlen] at hread
  exact ⟨text, s', h, hread⟩

end Session
end SqlTree
