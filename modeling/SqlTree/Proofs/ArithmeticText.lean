import SqlTree.Proofs.ParameterTrace
import SqlTree.Proofs.Tokens

/-!
# Reading arithmetic back

No precedence decides how arithmetic is read: every operand that is arithmetic itself stands in
parentheses. So the text of an arithmetic tree over columns has only one tree.

* `Formula`, `Node.Denotes` -- arithmetic over columns, each known by two names only, and the trees
  that are written as it is;
* `Formula.text` -- the text of a formula in a dialect, and `Node.Denotes.spell`, that the trees are
  written so;
* `Formula.tokens`, `Formula.reads_text` -- what this text is read as, whatever the names are;
* `Formula.Unambiguous`, `Formula.unambiguous` -- tokens that are those of a formula up to a closing
  parenthesis are those of no other one, and leave the same rest;
* `Session.render_distinguishes` -- two renderings are equal exactly if the formulas are.
-/

namespace SqlTree

open Reading

/-! ## 1. Formulas -/

/-- Arithmetic over columns, of which only the names of the relation and of the column count. -/
inductive Formula where
  | column (relation name : String)
  | binary (left : Formula) (op : ArithmeticOp) (right : Formula)
  | unary (op : UnaryOp) (operand : Formula)
  deriving DecidableEq

/-- A tree is arithmetic over columns of tables and aliases, and this is its formula. -/
inductive Node.Denotes : Node → Formula → Prop where
  | column {relation : Node} {r : String} (h : relation.relationName? = some r) (name : String)
    (typeName : Option String) : Denotes ⟨.column relation name typeName⟩ (.column r name)
  | binary {left right : Node} {f g : Formula} (hl : Denotes left f) (op : ArithmeticOp)
    (hr : Denotes right g) : Denotes ⟨.arithmetic left op right⟩ (.binary f op g)
  | unary (op : UnaryOp) {operand : Node} {f : Formula} (h : Denotes operand f) :
    Denotes ⟨.unary op operand⟩ (.unary op f)

namespace Formula

/-- A text in parentheses, unless it is that of a column. -/
def grouped : Formula → String → String
  | .column _ _, text => text
  | _, text => "(" ++ text ++ ")"

/-- The text of a formula. -/
def text (dialect : Dialect) : Formula → String
  | .column relation name => dialect.quote relation ++ "." ++ dialect.quote name
  | .binary left op right =>
    left.grouped (left.text dialect) ++ " " ++ op.word ++ " " ++ right.grouped (right.text dialect)
  | .unary op operand => op.word ++ operand.grouped (operand.text dialect)

end Formula

namespace Node.Denotes

variable {n : Node} {f : Formula}

/-- An operand is written in parentheses, unless it is a column. -/
theorem spell_operand (h : n.Denotes f) (how : Spelling) (layout : Layout) (bound : Nat) :
    how.spell (Render.arithmeticOperand (n.rendered layout)) bound
      = f.grouped (how.spell (n.doc layout) bound) := by
  cases h <;> rfl

/-- **An arithmetic tree is written as its formula**, in either layout and with any parameters
    before it. -/
theorem spell (h : n.Denotes f) (how : Spelling) (layout : Layout) (bound : Nat) :
    how.spell (n.doc layout) bound = f.text how.dialect := by
  induction h generalizing bound with
  | @column relation r h name typeName =>
    rw [doc_mk]
    show how.spell (Render.qualified relation.relationName? (.name name)) bound = _
    rw [h]
    rfl
  | @binary left right f g hl op hr ihl ihr =>
    rw [doc_mk]
    show how.spell (Render.arithmeticOperand (left.rendered layout)) bound ++ " " ++ op.word
      ++ " " ++ how.spell (Render.arithmeticOperand (right.rendered layout)) _ = _
    rw [hl.spell_operand, hr.spell_operand, ihl, ihr]
    rfl
  | @unary op operand f h ih =>
    rw [doc_mk]
    show op.word ++ how.spell (Render.arithmeticOperand (operand.rendered layout)) _ = _
    rw [h.spell_operand, ih]
    rfl

/-- Arithmetic over columns mentions nothing. -/
theorem mentioned_eq_nil (h : n.Denotes f) : n.visited.flatMap mentioned = [] := by
  induction h with
  | column h name typeName => rfl
  | @binary left right f g hl op hr ihl ihr =>
    rw [visited_mk]
    show (left.visited ++ (right.visited ++ [])).flatMap mentioned = []
    rw [List.flatMap_append, List.flatMap_append, ihl, ihr]
    rfl
  | @unary op operand f h ih =>
    rw [visited_mk]
    show (operand.visited ++ []).flatMap mentioned = []
    rw [List.flatMap_append, ih]
    rfl

/-- **Arithmetic over columns is never refused and binds nothing**, and its text is that of its
    formula. -/
theorem render (h : n.Denotes f) (s : Session) :
    s.render n = .ok (f.text s.renderer.dialect, s) := by
  have hmentions : (n.doc s.renderer.layout).mentions = [] := by
    rw [n.mentions_doc, h.mentioned_eq_nil]
  have hbinds : n.collect = [] := by
    rw [← n.bindings_doc s.renderer.layout, Doc.bindings_eq, hmentions]
    rfl
  have htext := h.spell s.renderer.spelling s.renderer.layout s.index
  refine Session.render_eq_ok_iff.mpr ⟨?_, htext.symm, ?_⟩
  · rw [Doc.fault?_eq, hmentions]
    rfl
  · rw [hbinds, List.append_nil, ite_self]

end Node.Denotes

/-! ## 2. Tokens of formulas -/

/-- The characters of an operator, each of which is a token. -/
def marks (word : String) : List Token := word.toList.map .mark

/-- A character of an operator. -/
def Token.isOperator : Token → Bool
  | .mark c => "+-*/&|^<>~".toList.contains c
  | _ => false

namespace Formula

/-- Tokens in parentheses, unless they are those of a column. -/
def groupedTokens : Formula → List Token → List Token
  | .column _ _, ts => ts
  | _, ts => .mark '(' :: (ts ++ [.mark ')'])

/-- What a formula is read as. -/
def tokens : Formula → List Token
  | .column relation name => [.name relation.toList, .mark '.', .name name.toList]
  | .binary left op right =>
    left.groupedTokens left.tokens ++ marks op.word ++ right.groupedTokens right.tokens
  | .unary op operand => marks op.word ++ operand.groupedTokens operand.tokens

/-- What a formula is read as where it is an operand. -/
def operandTokens (f : Formula) : List Token := f.groupedTokens f.tokens

end Formula

/-- An operator between blanks is read as its characters. -/
theorem reads_arithmeticOp (r : Reading) (op : ArithmeticOp) :
    Reads r (" " ++ op.word ++ " ").toList .held (marks op.word) .free := by
  have hword : (r.read .gap op.word.toList).1.settled = true ∧ r.lex op.word = marks op.word := by
    obtain ⟨dialect, literals⟩ := r
    cases op <;> cases dialect <;> cases literals <;> exact ⟨rfl, rfl⟩
  have hblank : ∀ e', Reads r [' '] .held [] e' := reads_separator (by decide) r .held
  have hread : Reads r op.word.toList .free (marks op.word) .held :=
    hword.2 ▸ reads_lex hword.1
  have hall := ((hblank .free).append hread).append (hblank .free)
  rw [List.nil_append, List.append_nil] at hall
  simp only [String.toList_append]
  exact hall

theorem reads_unaryOp (r : Reading) (op : UnaryOp) :
    Reads r op.word.toList .free (marks op.word) .free := by
  have hword : r.lex op.word = marks op.word := by
    obtain ⟨dialect, literals⟩ := r
    cases op
    cases dialect <;> cases literals <;> rfl
  rw [← hword]
  cases op
  exact reads_groupWord rfl r

namespace Formula

variable {r : Reading} {f g : Formula} {ts us : List Token}

theorem reads_grouped (f : Formula) {s : String} (h : Reads r s.toList .free ts .held) :
    Reads r (f.grouped s).toList .free (f.groupedTokens ts) .held := by
  have hparen : Reads r ("(" ++ s ++ ")").toList .free (.mark '(' :: (ts ++ [.mark ')']))
      .held := by
    simp only [String.toList_append]
    exact reads_paren .free .held h
  cases f with
  | column relation name => exact h
  | _ => exact hparen

/-- **The text of a formula is read as its tokens**, whatever the names are. -/
theorem reads_text (r : Reading) (f : Formula) :
    Reads r (f.text r.dialect).toList .free f.tokens .held := by
  induction f with
  | column relation name =>
    have hpoint : Reads r ".".toList .held [.mark '.'] .free :=
      reads_separator (by decide) r .held .free
    have hall := ((reads_quote r relation).append hpoint).append (reads_quote r name)
    show Reads r (r.dialect.quote relation ++ "." ++ r.dialect.quote name).toList _ _ _
    simp only [String.toList_append]
    exact hall
  | binary left op right ihl ihr =>
    have hall := ((left.reads_grouped ihl).append (reads_arithmeticOp r op)).append
      (right.reads_grouped ihr)
    simp only [text, tokens, String.toList_append, List.append_assoc] at hall ⊢
    exact hall
  | unary op operand ih =>
    have hall := (reads_unaryOp r op).append (operand.reads_grouped ih)
    simp only [text, String.toList_append]
    exact hall

/-! ## 3. One formula for some tokens -/

/-- An operand does not begin with an operator. -/
theorem operandTokens_head (f : Formula) (ts : List Token) :
    (f.operandTokens ++ ts).head?.any Token.isOperator = false := by
  cases f <;> rfl

/-- Where operators end is seen on the tokens. -/
theorem operators_append_inj {as bs : List Token} (ha : ∀ t ∈ as, t.isOperator = true)
    (hb : ∀ t ∈ bs, t.isOperator = true) (hts : ts.head?.any Token.isOperator = false)
    (hus : us.head?.any Token.isOperator = false) (h : as ++ ts = bs ++ us) :
    as = bs ∧ ts = us := by
  have hnone : ∀ {ts : List Token}, ts.head?.any Token.isOperator = false →
      ts.takeWhile Token.isOperator = [] := by
    intro ts hts
    cases ts with
    | nil => rfl
    | cons t rest => exact List.takeWhile_cons_of_neg (Bool.not_eq_true _ ▸ hts)
  have hfront := congrArg (List.takeWhile Token.isOperator) h
  rw [List.takeWhile_append_of_pos ha, List.takeWhile_append_of_pos hb, hnone hts, hnone hus,
    List.append_nil, List.append_nil] at hfront
  subst hfront
  exact ⟨rfl, List.append_cancel_left h⟩

theorem isOperator_arithmeticOp (op : ArithmeticOp) :
    ∀ t ∈ marks op.word, t.isOperator = true := by
  cases op <;> decide

theorem isOperator_unaryOp (op : UnaryOp) : ∀ t ∈ marks op.word, t.isOperator = true := by
  cases op
  decide

/-- Operators are told apart by their characters. -/
theorem arithmeticOp_of_marks {op op' : ArithmeticOp} (h : marks op.word = marks op'.word) :
    op = op' := by
  have hfound : ∀ op : ArithmeticOp, (Vocabulary.members : List ArithmeticOp).find?
      (fun member => marks member.word == marks op.word) = some op := by
    intro op
    cases op <;> rfl
  have hop := hfound op
  rw [h, hfound op'] at hop
  exact (Option.some.inj hop).symm

/-- A binary formula is its left operand, an operator, and what follows. -/
theorem tokens_binary_append (f : Formula) (op : ArithmeticOp) (g : Formula) (ts : List Token) :
    (binary f op g).tokens ++ ts
      = f.operandTokens ++ (marks op.word ++ (g.operandTokens ++ ts)) := by
  show f.operandTokens ++ marks op.word ++ g.operandTokens ++ ts = _
  simp only [List.append_assoc]

theorem tokens_unary_append (op : UnaryOp) (f : Formula) (ts : List Token) :
    (unary op f).tokens ++ ts = marks op.word ++ (f.operandTokens ++ ts) :=
  List.append_assoc _ _ _

/-- The tokens of a column are those of no other operand. -/
theorem column_append_inj {relation name : String}
    (h : (column relation name).operandTokens ++ ts = g.operandTokens ++ us) :
    column relation name = g ∧ ts = us := by
  cases g with
  | column relation' name' =>
    simp only [operandTokens, groupedTokens, tokens, List.cons_append, List.nil_append,
      List.cons.injEq, Token.name.injEq, String.toList_inj, true_and] at h
    obtain ⟨rfl, rfl, rfl⟩ := h
    exact ⟨rfl, rfl⟩
  | _ => cases h

/-- Up to a closing parenthesis tokens are those of one formula. -/
def Unambiguous (f : Formula) : Prop :=
  ∀ (g : Formula) (ts us : List Token),
    f.tokens ++ .mark ')' :: ts = g.tokens ++ .mark ')' :: us → f = g ∧ ts = us

/-- An operand ends where its parentheses do. -/
theorem operand_append_inj (hf : f.Unambiguous)
    (h : f.operandTokens ++ ts = g.operandTokens ++ us) : f = g ∧ ts = us := by
  have hinside : .mark '(' :: (f.tokens ++ [.mark ')']) ++ ts
      = .mark '(' :: (g.tokens ++ [.mark ')']) ++ us → f = g ∧ ts = us := by
    intro h
    rw [List.cons_append, List.cons_append, List.cons_inj_right, List.append_assoc,
      List.append_assoc] at h
    exact hf g ts us h
  cases f with
  | column relation name => exact column_append_inj h
  | binary l op k =>
    cases g with
    | column relation name => cases h
    | _ => exact hinside h
  | unary op k =>
    cases g with
    | column relation name => cases h
    | _ => exact hinside h

/-- An operator does not begin with a closing parenthesis. -/
theorem close_ne_operator (op : ArithmeticOp) :
    .mark ')' :: ts ≠ marks op.word ++ us := by
  intro h
  cases op <;> cases h

/-- An operand does not begin with the operator of another one. -/
theorem operand_ne_operator (f : Formula) (op : UnaryOp) :
    f.operandTokens ++ ts ≠ marks op.word ++ us := by
  intro h
  have hhead := f.operandTokens_head ts
  rw [h] at hhead
  cases op
  cases hhead

theorem unambiguous_column (relation name : String) : (column relation name).Unambiguous := by
  intro g ts us h
  cases g with
  | column relation' name' =>
    obtain ⟨heq, hrest⟩ := column_append_inj (g := .column relation' name') h
    exact ⟨heq, (List.cons_inj_right _).mp hrest⟩
  | binary l op k =>
    rw [tokens_binary_append] at h
    exact absurd (column_append_inj h).2 (close_ne_operator op)
  | unary op k =>
    rw [tokens_unary_append] at h
    exact absurd h (operand_ne_operator (.column relation name) op)

/-- The left operand is read first, then the operator up to where the right one begins. -/
theorem unambiguous_binary (hf : f.Unambiguous) (op : ArithmeticOp) (hg : g.Unambiguous) :
    (binary f op g).Unambiguous := by
  intro k ts us h
  rw [tokens_binary_append] at h
  cases k with
  | column relation name =>
    obtain ⟨-, hrest⟩ := operand_append_inj (g := .column relation name) hf h
    exact absurd hrest.symm (close_ne_operator op)
  | binary f' op' g' =>
    rw [tokens_binary_append] at h
    obtain ⟨rfl, hmiddle⟩ := operand_append_inj hf h
    obtain ⟨hop, hright⟩ := operators_append_inj (isOperator_arithmeticOp op)
      (isOperator_arithmeticOp op') (g.operandTokens_head _) (g'.operandTokens_head _) hmiddle
    obtain rfl := arithmeticOp_of_marks hop
    obtain ⟨rfl, hrest⟩ := operand_append_inj hg hright
    exact ⟨rfl, (List.cons_inj_right _).mp hrest⟩
  | unary op' k =>
    rw [tokens_unary_append] at h
    exact absurd h (operand_ne_operator f op')

theorem unambiguous_unary (op : UnaryOp) (hf : f.Unambiguous) : (unary op f).Unambiguous := by
  intro g ts us h
  rw [tokens_unary_append] at h
  cases g with
  | column relation name =>
    exact absurd h.symm (operand_ne_operator (.column relation name) op)
  | binary l op' k =>
    rw [tokens_binary_append] at h
    exact absurd h.symm (operand_ne_operator l op)
  | unary op' g =>
    rw [tokens_unary_append] at h
    obtain ⟨-, hoperand⟩ := operators_append_inj (isOperator_unaryOp op) (isOperator_unaryOp op')
      (f.operandTokens_head _) (g.operandTokens_head _) h
    obtain ⟨rfl, hrest⟩ := operand_append_inj hf hoperand
    cases op
    cases op'
    exact ⟨rfl, (List.cons_inj_right _).mp hrest⟩

/-- **Up to a closing parenthesis, tokens are those of one formula only.** -/
theorem unambiguous (f : Formula) : f.Unambiguous := by
  induction f with
  | column relation name => exact unambiguous_column relation name
  | binary left op right ihl ihr => exact unambiguous_binary ihl op ihr
  | unary op operand ih => exact unambiguous_unary op ih

/-- **A text has one formula**: no two are written alike in one dialect. -/
theorem text_inj {dialect : Dialect} (h : f.text dialect = g.text dialect) : f = g := by
  have hf := (reads_text ⟨dialect, true⟩ f).lex_eq
  have hg := (reads_text ⟨dialect, true⟩ g).lex_eq
  have htokens : f.tokens = g.tokens := by
    rw [← hf, ← hg]
    exact congrArg _ h
  exact (f.unambiguous g [] [] (by rw [htokens])).1

end Formula

/-! ## 4. Renderings -/

namespace Session

/-- **The text of arithmetic over columns determines its tree.** Two trees of operators over columns
    of tables and aliases are never refused, whatever the names are, and in one dialect their texts
    are equal exactly if the trees are, up to what is not written: a column counts as the name of
    its relation and its own. Neither precedence nor the side that operators group to is needed. -/
theorem render_distinguishes {n₁ n₂ : Node} {f₁ f₂ : Formula} (h₁ : n₁.Denotes f₁)
    (h₂ : n₂.Denotes f₂) (s₁ s₂ : Session) (hd : s₁.renderer.dialect = s₂.renderer.dialect) :
    ∃ text₁ text₂, s₁.render n₁ = .ok (text₁, s₁) ∧ s₂.render n₂ = .ok (text₂, s₂)
      ∧ (text₁ = text₂ ↔ f₁ = f₂) := by
  refine ⟨_, _, h₁.render s₁, h₂.render s₂, ?_, ?_⟩
  · rw [hd]
    exact Formula.text_inj
  · rintro rfl
    rw [hd]

/-- A column whose names look like more than one column. -/
def oddColumn : Node := ⟨.column ⟨.table "a\x22.\x22b"⟩ "c\x22 - ~(\x22" none⟩

/-- The two ways to subtract three times. -/
def subtractions : Node × Node :=
  (⟨.arithmetic ⟨.arithmetic oddColumn .sub oddColumn⟩ .sub ⟨.unary .bitNot oddColumn⟩⟩,
    ⟨.arithmetic oddColumn .sub ⟨.arithmetic oddColumn .sub ⟨.unary .bitNot oddColumn⟩⟩⟩)

/-- They differ in their texts, also with parameters before one of them. -/
theorem render_distinguishes_subtractions :
    ∃ text₁ text₂, (Session.mk ⟨.sqlite, .oneLine, true⟩ []).render subtractions.1
        = .ok (text₁, ⟨⟨.sqlite, .oneLine, true⟩, []⟩)
      ∧ (Session.mk ⟨.sqlite, .lines, true⟩ [.int 1]).render subtractions.2
        = .ok (text₂, ⟨⟨.sqlite, .lines, true⟩, [.int 1]⟩)
      ∧ text₁ ≠ text₂ := by
  have hcolumn : oddColumn.Denotes (.column "a\x22.\x22b" "c\x22 - ~(\x22") :=
    .column rfl _ none
  have hnot := Node.Denotes.unary .bitNot hcolumn
  obtain ⟨text₁, text₂, hfirst, hsecond, hiff⟩ := render_distinguishes
    (.binary (.binary hcolumn .sub hcolumn) .sub hnot)
    (.binary hcolumn .sub (.binary hcolumn .sub hnot))
    ⟨⟨.sqlite, .oneLine, true⟩, []⟩ ⟨⟨.sqlite, .lines, true⟩, [.int 1]⟩ rfl
  exact ⟨text₁, text₂, hfirst, hsecond, fun h => absurd (hiff.mp h) (by decide)⟩

end Session
end SqlTree
