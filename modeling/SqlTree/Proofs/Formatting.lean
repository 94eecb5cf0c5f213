import SqlTree.Proofs.Layouts
import SqlTree.Proofs.Literals
import SqlTree.Proofs.Within

/-!
# What a layout does to the tokens

A layout over several lines writes the tokens that stand on one line, in the same order, but moves
lines without looking at what they are lines of. A token that spans lines is torn where it stands
in a query that a set operation combines with another one: its lines are moved with the others.

* `Token.Moved` -- a token, and what a number of tabs makes of it;
* `Doc.Level`, `Node.level_doc` -- apart from the tabs both layouts of a tree have the same tokens;
* `Doc.Torn`, `Doc.tokens_eq_plain_iff` -- where a token is moved that spans lines, and only there
  the tabs are seen;
* `Node.torn_doc_iff` -- that is in the queries that a set operation combines;
* `Session.render_lines` -- the two renderings of a tree.
-/

namespace SqlTree

open Reading

/-! ## 1. Moved tokens -/

/-- A token and what a number of tabs makes of it. -/
def Token.Moved (t t' : Token) : Prop := ∃ k, t' = Token.shifted^[k] t

namespace Token

theorem Moved.shifted {t t' : Token} (h : Moved t t') : Moved t t'.shifted := by
  obtain ⟨k, rfl⟩ := h
  exact ⟨k + 1, (Function.iterate_succ_apply' _ k t).symm⟩

theorem moved_refl (ts : List Token) : List.Forall₂ Moved ts ts :=
  List.forall₂_same.mpr fun _ _ => ⟨0, rfl⟩

/-- Moved once more, tokens are what they were only if none of them spans lines. -/
theorem map_shifted_eq_iff {ts us : List Token} (h : List.Forall₂ Moved ts us) :
    us.map Token.shifted = ts ↔ ts.any spansLines = false := by
  induction h with
  | nil => exact ⟨fun _ => rfl, fun _ => rfl⟩
  | @cons t u ts us hmoved _ ih =>
    obtain ⟨k, rfl⟩ := hmoved
    have hhead : (Token.shifted^[k] t).shifted = t ↔ t.spansLines = false := by
      rw [← Function.iterate_succ_apply' Token.shifted, Token.iterate_shifted_eq_iff]
      exact ⟨fun h => h.resolve_left (Nat.succ_ne_zero k), .inr⟩
    rw [List.map_cons, List.cons.injEq, hhead, ih, List.any_cons, Bool.or_eq_false_iff]

end Token

/-! ## 2. Texts without their tabs -/

namespace Doc

/-- The text with no lines moved. -/
def plain : Doc → Doc
  | .comparison op left right => .comparison op left.plain right.plain
  | .paren body => .paren body.plain
  | .indented body => body.plain
  | .append left right => .append left.plain right.plain
  | d => d

theorem Flat.plain {d : Doc} (h : d.Flat) : d.plain = d := by
  induction d with
  | comparison op l r ihl ihr => exact congrArg₂ (Doc.comparison op) (ihl h.1) (ihr h.2)
  | paren body ih => exact congrArg Doc.paren (ih h)
  | indented body ih => exact h.elim
  | append l r ihl ihr => exact congrArg₂ Doc.append (ihl h.1) (ihr h.2)
  | _ => rfl

@[simp] theorem slots_append (l r : Doc) : (Doc.append l r).slots = l.slots + r.slots :=
  List.length_append

@[simp] theorem slots_comparison (op : ComparisonOp) (l r : Doc) :
    (Doc.comparison op l r).slots = l.slots + r.slots := List.length_append

@[simp] theorem slots_plain (d : Doc) : d.plain.slots = d.slots := by
  induction d with
  | comparison op l r ihl ihr => rw [plain, slots_comparison, slots_comparison, ihl, ihr]
  | append l r ihl ihr => rw [plain, slots_append, slots_append, ihl, ihr]
  | paren body ih => exact ih
  | indented body ih => exact ih
  | _ => rfl

section Tokens

variable (how : Spelling) (literals : Bool)

/-- Two texts have the same tokens, apart from tabs. -/
structure Level (d d' : Doc) : Prop where
  slots : d.slots = d'.slots
  tokens : ∀ bound, d.plain.tokens how literals bound = d'.plain.tokens how literals bound

variable {how literals} {d d' l r : Doc}

/-- Texts that one dialect reads alike are read alike by all, if they open nothing. -/
theorem lex_congr {s s' : String} (hs : s.toList.all isTame = true)
    (hs' : s'.toList.all isTame = true)
    (h : (Reading.mk .postgres true).lex s = (Reading.mk .postgres true).lex s') :
    (how.reading literals).lex s = (how.reading literals).lex s' :=
  (lex_tame hs _).trans (h.trans (lex_tame hs' _).symm)

/-- **Texts that are laid out side by side have the same tokens, apart from tabs.** -/
theorem Laid.level (h : Laid (Level how literals) (Level how literals) d d') :
    Level how literals d d' := by
  have hempty : (how.reading literals).lex "" = [] := rfl
  have hline : (how.reading literals).lex "\n" = (how.reading literals).lex "" :=
    lex_congr (by decide) (by decide) rfl
  have hspace : (how.reading literals).lex " " = (how.reading literals).lex "" :=
    lex_congr (by decide) (by decide) rfl
  have hcomma : (how.reading literals).lex "\n\t," = (how.reading literals).lex ", " :=
    lex_congr (by decide) (by decide) rfl
  have hand : (how.reading literals).lex "\n\tAND " = (how.reading literals).lex " AND " :=
    lex_congr (by decide) (by decide) rfl
  induction h with
  | same _ => exact ⟨rfl, fun _ => rfl⟩
  | kid h => exact h
  | @comparison op l l' r r' hl hr ihl ihr =>
    refine ⟨by rw [slots_comparison, slots_comparison, ihl.slots, ihr.slots], fun bound => ?_⟩
    rw [plain, plain, Doc.tokens, Doc.tokens, slots_plain, slots_plain, ihl.tokens, ihr.tokens,
      ihl.slots]
  | paren h ih =>
    refine ⟨ih.slots, fun bound => ?_⟩
    rw [plain, plain, Doc.tokens, Doc.tokens, ih.tokens]
  | @append l l' r r' hl hr ihl ihr =>
    refine ⟨by rw [slots_append, slots_append, ihl.slots, ihr.slots], fun bound => ?_⟩
    rw [plain, plain, Doc.tokens, Doc.tokens, slots_plain, slots_plain, ihl.tokens, ihr.tokens,
      ihl.slots]
  | line => exact ⟨rfl, fun _ => hline.trans hspace.symm⟩
  | between s =>
    cases s with
    | comma => exact ⟨rfl, fun _ => hcomma⟩
    | conjunction => exact ⟨rfl, fun _ => hand⟩
  | @heading d d' h ih =>
    have hslots : (d' ++ " " ++ Doc.empty : Doc).slots = d'.slots :=
      (slots_append _ _).trans (slots_append _ _)
    refine ⟨ih.slots.trans hslots.symm, fun bound => ?_⟩
    show _ = d'.plain.tokens how literals bound ++ (how.reading literals).lex " "
      ++ (how.reading literals).lex ""
    rw [hspace, hempty, List.append_nil, List.append_nil, ih.tokens]
  | @block d d' h =>
    have hslots : (Doc.paren ("\n" ++ .indented d ++ "\n")).slots = d.slots :=
      (slots_append _ _).trans ((congrArg (· + 0) (slots_append _ _)).trans (Nat.zero_add _))
    refine ⟨hslots.trans h.slots, fun bound => ?_⟩
    show Token.mark '(' :: ((how.reading literals).lex "\n"
      ++ d.plain.tokens how literals (bound + 0) ++ (how.reading literals).lex "\n" ++ [.mark ')'])
      = .mark '(' :: (d'.plain.tokens how literals bound ++ [.mark ')'])
    rw [hline, hempty, List.nil_append, List.append_nil, Nat.add_zero, h.tokens]

/-! ## 3. Torn tokens -/

theorem any_spansLines_value (v : Value) (bound bound' : Nat) :
    ((how.reading literals).lex (how.value v bound)).any Token.spansLines
      = ((how.reading literals).lex (how.value v bound')).any Token.spansLines := by
  cases hp : how.parameterise with
  | true =>
    have hslot : ∀ i, (how.dialect.placeholderToken i).spansLines = false := by
      intro i
      cases how.dialect <;> rfl
    rw [(Spelling.lex_value hp v bound).2, (Spelling.lex_value hp v bound').2]
    split
    · rfl
    · rw [List.any_cons, List.any_cons, hslot, hslot]
  | false =>
    have hvalue : how.value v bound = how.value v bound' := by
      unfold Spelling.value
      rw [hp]
      rfl
    rw [hvalue]

/-- Placeholders never span lines, so it is of no matter how many parameters were bound before. -/
theorem any_spansLines_plain (d : Doc) : ∀ bound bound' : Nat,
    (d.plain.tokens how literals bound).any Token.spansLines
      = (d.plain.tokens how literals bound').any Token.spansLines := by
  induction d with
  | value v => exact any_spansLines_value v
  | comparison op l r ihl ihr =>
    intro bound bound'
    rw [plain, Doc.tokens, Doc.tokens]
    simp only [List.any_append]
    rw [ihl bound bound', ihr _ (bound' + l.plain.slots)]
  | paren body ih =>
    intro bound bound'
    rw [plain, Doc.tokens, Doc.tokens, List.any_cons, List.any_cons, List.any_append,
      List.any_append, ih bound bound']
  | indented body ih => exact ih
  | append l r ihl ihr =>
    intro bound bound'
    rw [plain, Doc.tokens, Doc.tokens, List.any_append, List.any_append, ihl bound bound',
      ihr _ (bound' + l.plain.slots)]
  | _ => exact fun _ _ => rfl

variable (how literals) in
/-- A token of the text spans lines. -/
def spans (d : Doc) : Bool := (d.plain.tokens how literals 0).any Token.spansLines

variable (how literals) in
/-- A token that spans lines stands where lines are moved. -/
def Torn : Doc → Prop
  | .comparison _ left right => Torn left ∨ Torn right
  | .paren body => Torn body
  | .indented body => body.spans how literals = true
  | .append left right => Torn left ∨ Torn right
  | _ => False

theorem spans_of_left (h : l.spans how literals = true) :
    (Doc.append l r).spans how literals = true := by
  show ((l.plain.tokens how literals 0) ++ _).any _ = true
  rw [List.any_append]
  exact Bool.or_eq_true_iff.mpr (.inl h)

theorem spans_of_right (h : r.spans how literals = true) :
    (Doc.append l r).spans how literals = true := by
  show (_ ++ (r.plain.tokens how literals (0 + l.plain.slots))).any _ = true
  rw [List.any_append, any_spansLines_plain r _ 0]
  exact Bool.or_eq_true_iff.mpr (.inr h)

theorem Torn.spans (h : d.Torn how literals) : d.spans how literals = true := by
  induction d with
  | comparison op l r ihl ihr =>
    show (_ ++ l.plain.tokens how literals 0 ++ _
      ++ r.plain.tokens how literals (0 + l.plain.slots) ++ _).any _ = true
    simp only [List.any_append, Bool.or_eq_true_iff, any_spansLines_plain r (0 + l.plain.slots) 0]
    rcases h with h | h
    · exact .inl (.inl (.inl (.inr (ihl h))))
    · exact .inl (.inr (ihr h))
  | paren body ih =>
    show (Token.mark '(' :: (body.plain.tokens how literals 0 ++ [.mark ')'])).any _ = true
    rw [List.any_cons, List.any_append]
    exact Bool.or_eq_true_iff.mpr (.inr (Bool.or_eq_true_iff.mpr (.inl (ih h))))
  | indented body ih => exact h
  | append l r ihl ihr =>
    rcases h with h | h
    · exact spans_of_left (ihl h)
    · exact spans_of_right (ihr h)
  | _ => exact h.elim

theorem Flat.not_torn (h : d.Flat) : ¬ d.Torn how literals := by
  induction d with
  | comparison op l r ihl ihr => exact fun ht => ht.elim (ihl h.1) (ihr h.2)
  | paren body ih => exact ih h
  | indented body ih => exact h.elim
  | append l r ihl ihr => exact fun ht => ht.elim (ihl h.1) (ihr h.2)
  | _ => exact id

/-- **The tokens of a text are those without tabs, each moved.** -/
theorem moved_tokens (d : Doc) : ∀ bound, List.Forall₂ Token.Moved
    (d.plain.tokens how literals bound) (d.tokens how literals bound) := by
  induction d with
  | comparison op l r ihl ihr =>
    intro bound
    rw [plain, Doc.tokens, Doc.tokens, slots_plain]
    exact List.rel_append (List.rel_append (List.rel_append (List.rel_append (Token.moved_refl _)
      (ihl bound)) (Token.moved_refl _)) (ihr _)) (Token.moved_refl _)
  | paren body ih =>
    intro bound
    exact .cons ⟨0, rfl⟩ (List.rel_append (ih bound) (Token.moved_refl _))
  | indented body ih =>
    intro bound
    rw [plain, Doc.tokens, List.forall₂_map_right_iff]
    exact (ih bound).imp fun _ _ => Token.Moved.shifted
  | append l r ihl ihr =>
    intro bound
    rw [plain, Doc.tokens, Doc.tokens, slots_plain]
    exact List.rel_append (ihl bound) (ihr _)
  | _ => exact fun _ => Token.moved_refl _

/-- **Tabs are seen only where a token is torn.** -/
theorem tokens_eq_plain_iff (d : Doc) : ∀ bound,
    d.tokens how literals bound = d.plain.tokens how literals bound ↔ ¬ d.Torn how literals := by
  have hsplit : ∀ {ss ts us vs : List Token}, List.Forall₂ Token.Moved ss ts →
      (ts ++ us = ss ++ vs ↔ ts = ss ∧ us = vs) := fun h =>
    ⟨fun heq => List.append_inj heq h.length_eq.symm, fun ⟨hts, hus⟩ => by rw [hts, hus]⟩
  induction d with
  | comparison op l r ihl ihr =>
    intro bound
    rw [plain, Doc.tokens, Doc.tokens, slots_plain, Torn, not_or, ← ihl bound,
      ← ihr (bound + l.slots), List.append_cancel_right_eq, List.append_assoc, List.append_assoc,
      List.append_assoc, List.append_assoc, List.append_cancel_left_eq, hsplit (moved_tokens l _),
      List.append_cancel_left_eq]
  | paren body ih =>
    intro bound
    rw [plain, Doc.tokens, Doc.tokens, Torn, ← ih bound, List.cons_inj_right,
      List.append_cancel_right_eq]
  | indented body ih =>
    intro bound
    rw [plain, Doc.tokens, Token.map_shifted_eq_iff (moved_tokens body bound),
      any_spansLines_plain body bound 0, Torn, spans, Bool.not_eq_true]
  | append l r ihl ihr =>
    intro bound
    rw [plain, Doc.tokens, Doc.tokens, slots_plain, Torn, not_or, ← ihl bound,
      ← ihr (bound + l.slots), hsplit (moved_tokens l _)]
  | _ => exact fun _ => ⟨fun _ h => h, fun _ => rfl⟩

/-! ## 4. Where tokens are torn -/

/-- What is torn in a text over several lines is torn in the text of a child, or spans lines in a
    block. -/
theorem Laid.of_torn {P : Prop} (h : Laid (fun d _ => d.Torn how literals → P)
    (fun d _ => d.spans how literals = true → P) d d') : d.Torn how literals → P := by
  induction h with
  | same h => exact fun ht => (h.not_torn ht).elim
  | kid h => exact h
  | comparison op hl hr ihl ihr => exact fun ht => ht.elim ihl ihr
  | paren h ih => exact ih
  | append hl hr ihl ihr => exact fun ht => ht.elim ihl ihr
  | line => exact False.elim
  | between s => cases s <;> exact False.elim
  | heading h ih => exact ih
  | block h => exact fun ht => ht.elim (fun ht => ht.elim False.elim h) False.elim

/-- What is torn on one line is torn in the other layout. -/
theorem Laid.torn (h : Laid (fun d d' => d'.Torn how literals → d.Torn how literals) Eq d d') :
    d'.Torn how literals → d.Torn how literals := by
  induction h with
  | same h => exact id
  | kid h => exact h
  | comparison op hl hr ihl ihr => exact Or.imp ihl ihr
  | paren h ih => exact ih
  | append hl hr ihl ihr => exact Or.imp ihl ihr
  | line => exact False.elim
  | between s => cases s <;> exact False.elim
  | heading h ih => exact fun ht => ht.elim (fun ht => ht.elim ih False.elim) False.elim
  | block h => exact fun ht => .inl (.inr (h ▸ Torn.spans ht))

theorem Within.torn {x : Doc} (h : Within x d) (hx : x.Torn how literals) :
    d.Torn how literals := by
  induction h with
  | here => exact hx
  | left _ ih => exact .inl ih
  | right _ ih => exact .inr ih
  | comparisonLeft _ ih => exact .inl ih
  | comparisonRight _ ih => exact .inr ih
  | paren _ ih => exact ih

end Tokens
end Doc

namespace Node

/-- The queries that set operations of a tree combine. -/
def combined (t : Node) : List Node := t.visited.flatMap fun n => n.form.combined

variable {how : Spelling} {literals : Bool}

/-- **Both layouts of a tree have the same tokens, apart from tabs.** -/
theorem level_doc (t : Node) : Doc.Level how literals (t.doc .lines) (t.doc .oneLine) := by
  induction t using written_induction with
  | step form ih =>
    rw [doc_mk, doc_mk]
    exact (Render.laid_formDoc ih fun q hq => ih q (form.combined_subset hq)).level

theorem combined_mk (form : Form Node) :
    (Node.mk form).combined = form.combined ++ form.written.flatMap combined := by
  unfold combined
  rw [visited_mk, List.flatMap_cons, List.flatMap_assoc]
  rfl

/-- Where the text of a written child is torn, that of the whole tree is. -/
theorem torn_of_written {form : Form Node} {c : Node} (hc : c ∈ form.written)
    (h : (c.doc .lines).Torn how literals) : ((Node.mk form).doc .lines).Torn how literals := by
  have hcolumn : ∀ relation name typeName, c.form ≠ .column relation name typeName := by
    intro relation name typeName hform
    obtain ⟨form⟩ := c
    obtain rfl : form = .column relation name typeName := hform
    have hflat : (Render.qualified relation.relationName? (.name name)).Flat :=
      Render.flat_qualified trivial
    exact hflat.not_torn h
  have hchild : c.rendered .lines ∈ (form.map (rendered .lines)).written := by
    rw [Form.written_map]
    exact List.mem_map_of_mem hc
  have hline : (Render.formDoc .oneLine (form.map (rendered .lines))).Torn how literals :=
    (Render.within_formDoc (Render.unqualified_of_ne_column hcolumn) hchild).torn h
  have hlaid : Doc.Laid (fun d d' => d'.Torn how literals → d.Torn how literals) Eq
      (Render.formDoc .lines (form.map (rendered .lines)))
      (Render.formDoc .oneLine (form.map (rendered .lines))) :=
    Render.laid_formDoc (fun _ _ => id) fun _ _ => rfl
  rw [doc_mk]
  exact hlaid.torn hline

/-- A query that a form combines is moved. -/
theorem torn_of_combined {form : Form Node} {q : Node} (hq : q ∈ form.combined)
    (h : (q.doc .lines).spans how literals = true) :
    ((Node.mk form).doc .lines).Torn how literals := by
  cases form with
  | setOperation s =>
    have hblock : Section.block (q.doc .lines)
        ∈ Render.setOperationSections (s.map (rendered .lines)) := by
      rcases List.mem_pair.mp hq with rfl | rfl
      · exact List.mem_append_left _ (List.mem_append_left _
          (List.mem_append_left _ List.mem_cons_self))
      · exact List.mem_append_left _ (List.mem_append_left _ (List.mem_append_left _
          (List.mem_cons_of_mem _ (List.mem_cons_of_mem _ List.mem_cons_self))))
    have hwithin : Doc.Within (Layout.lines.lay (.block (q.doc .lines)))
        (Layout.lines.statement (Render.setOperationSections (s.map (rendered .lines)))) :=
      Doc.Within.here.join (List.mem_map_of_mem hblock)
    rw [doc_mk]
    exact hwithin.torn (.inl (.inr h))
  | _ => cases hq

/-- **Tokens are torn in the queries that set operations combine**, and nowhere else. -/
theorem torn_doc_iff (t : Node) : (t.doc .lines).Torn how literals
    ↔ ∃ q ∈ t.combined, (q.doc .oneLine).spans how literals = true := by
  have hspans : ∀ q : Node, (q.doc .lines).spans how literals
      = (q.doc .oneLine).spans how literals :=
    fun q => congrArg (List.any · Token.spansLines) (q.level_doc.tokens 0)
  induction t using written_induction with
  | step form ih =>
    constructor
    · rw [doc_mk, combined_mk]
      have hlaid : Doc.Laid
          (fun d _ => d.Torn how literals → ∃ q ∈ form.combined ++ form.written.flatMap combined,
            (q.doc .oneLine).spans how literals = true)
          (fun d _ => d.spans how literals = true →
            ∃ q ∈ form.combined ++ form.written.flatMap combined,
              (q.doc .oneLine).spans how literals = true)
          (Render.formDoc .lines (form.map (rendered .lines)))
          (Render.formDoc .oneLine (form.map (rendered .oneLine))) := by
        refine Render.laid_formDoc (fun c hc h => ?_) fun q hq h => ?_
        · obtain ⟨q, hq, hspan⟩ := (ih c hc).mp h
          exact ⟨q, List.mem_append_right _ (List.mem_flatMap.mpr ⟨c, hc, hq⟩), hspan⟩
        · exact ⟨q, List.mem_append_left _ hq, hspans q ▸ h⟩
      exact hlaid.of_torn
    · rintro ⟨q, hq, hspan⟩
      rw [combined_mk] at hq
      rcases List.mem_append.mp hq with hq | hq
      · exact torn_of_combined hq ((hspans q).trans hspan)
      · obtain ⟨c, hc, hq⟩ := List.mem_flatMap.mp hq
        exact torn_of_written hc ((ih c hc).mpr ⟨q, hq, hspan⟩)

/-- Combined queries are visited. -/
theorem combined_subset_visited (t : Node) : t.combined ⊆ t.visited := by
  intro q hq
  obtain ⟨n, hn, hq⟩ := List.mem_flatMap.mp hq
  refine visited_subset_visited hn ?_
  obtain ⟨form⟩ := n
  rw [visited_mk]
  exact List.mem_cons_of_mem _
    (List.mem_flatMap.mpr ⟨q, form.combined_subset hq, List.mem_cons_self⟩)

/-- Below a tree without verbatim SQL that is not refused nothing is, and everything is read as its
    tokens. -/
theorem lex_visited {t n : Node} (ht : t.NoVerbatim) {layout : Layout}
    (hf : (t.doc layout).fault? = none) (hn : n ∈ t.visited) (layout' : Layout) (how : Spelling)
    (bound : Nat) : (n.doc layout').fault? = none
      ∧ (how.reading true).lex (how.spell (n.doc layout') bound)
        = (n.doc layout').tokens how true bound := by
  have hmentions : ∀ m ∈ n.visited.flatMap mentioned, m ∈ (t.doc layout).mentions := by
    intro m hm
    obtain ⟨k, hk, hm⟩ := List.mem_flatMap.mp hm
    rw [t.mentions_doc]
    exact List.mem_flatMap.mpr ⟨k, visited_subset_visited hn hk, hm⟩
  have hplain := plain_of_fault?_eq_none ht hf
  refine ⟨?_, lex_spell (fun m hm => (hplain m (hmentions m hm)).reads) bound⟩
  rw [Doc.fault?_eq] at hf ⊢
  rw [n.mentions_doc]
  exact List.findSome?_eq_none_iff.mpr fun m hm =>
    List.findSome?_eq_none_iff.mp hf m (hmentions m hm)

/-- On one line there are no tabs to leave out. -/
theorem plain_doc_oneLine (n : Node) : (n.doc .oneLine).plain = n.doc .oneLine :=
  (n.spaced_doc .oneLine).flat.plain

/-- A text on one line spans lines, whatever was bound before, as its tokens do. -/
theorem spans_doc_oneLine (n : Node) (bound : Nat) : (n.doc .oneLine).spans how literals
    = ((n.doc .oneLine).tokens how literals bound).any Token.spansLines := by
  rw [Doc.spans, Doc.any_spansLines_plain _ 0 bound, plain_doc_oneLine]

end Node

/-! ## 5. Renderings -/

namespace Session

/-- **What a layout over several lines does to the tokens.** In every dialect, with placeholders and
    with literals, a tree without verbatim SQL is rendered over several lines if it is on one line.
    Both renderings bind the same parameters and have the same tokens in the same order, where in
    names, literals and comments each line feed may have taken up some tabs. The tokens are the
    same to the character if, and only if, no token in the rendering of a query that a set
    operation combines spans lines. -/
theorem render_lines {s s₁ : Session} {t : Node} {text : String}
    (hl : s.renderer.layout = .lines) (ht : t.NoVerbatim)
    (h : s.onOneLine.render t = .ok (text, s₁)) :
    let r : Reading := ⟨s.renderer.dialect, true⟩
    ∃ text' s₂, s.render t = .ok (text', s₂) ∧ s₂.params = s₁.params
      ∧ List.Forall₂ Token.Moved (r.lex text) (r.lex text')
      ∧ (r.lex text' = r.lex text ↔
          ∀ q ∈ t.combined, ∀ part s', s.onOneLine.render q = .ok (part, s') →
            ∀ token ∈ r.lex part, token.spansLines = false) := by
  intro r
  obtain ⟨hfault, htext, hs₁⟩ := render_eq_ok_iff.mp h
  have hread := fun (n : Node) (hn : n ∈ t.visited) (layout : Layout) =>
    Node.lex_visited ht hfault hn layout s.renderer.spelling s.index
  obtain ⟨hfault', hlex'⟩ := hread t List.mem_cons_self .lines
  have hlex : r.lex text = (t.doc .lines).plain.tokens s.renderer.spelling true s.index := by
    rw [htext, t.level_doc.tokens, t.plain_doc_oneLine]
    exact (hread t List.mem_cons_self .oneLine).2
  have hrender : s.render t = .ok (s.renderer.spelling.spell (t.doc .lines) s.index,
      if s.renderer.parameterise then { s with params := s.params ++ t.collect } else s) :=
    render_eq_ok_iff.mpr ⟨hl ▸ hfault', by rw [hl], rfl⟩
  have hlines : r.lex (s.renderer.spelling.spell (t.doc .lines) s.index)
      = (t.doc .lines).tokens s.renderer.spelling true s.index := hlex'
  refine ⟨_, _, hrender, ?_, ?_, ?_⟩
  · rw [hs₁]
    show _ = (if s.renderer.parameterise then
      { s.onOneLine with params := s.onOneLine.params ++ t.collect } else s.onOneLine).params
    split <;> rfl
  · rw [hlex, hlines]
    exact Doc.moved_tokens _ _
  · rw [hlex, hlines, Doc.tokens_eq_plain_iff, Node.torn_doc_iff]
    constructor
    · intro hnone q hq part s' hpart token htoken
      obtain ⟨-, rfl, -⟩ := render_eq_ok_iff.mp hpart
      by_contra hspans
      refine hnone ⟨q, hq, ?_⟩
      rw [q.spans_doc_oneLine s.index, ← (hread q (t.combined_subset_visited hq) .oneLine).2]
      exact List.any_eq_true.mpr ⟨token, htoken, Bool.not_eq_false _ ▸ hspans⟩
    · rintro hall ⟨q, hq, hspan⟩
      obtain ⟨hfine, hpart⟩ := hread q (t.combined_subset_visited hq) .oneLine
      rw [q.spans_doc_oneLine s.index, ← hpart] at hspan
      obtain ⟨token, htoken, hspans⟩ := List.any_eq_true.mp hspan
      have hnot := hall q hq _ _ (render_eq_ok_iff.mpr ⟨hfine, rfl, rfl⟩) token htoken
      rw [hspans] at hnot
      cases hnot

/-- All rows of a table. -/
def everything (table : String) : Node := ⟨.select { source := some ⟨.table table⟩ }⟩

/-- The rows of two tables, with a comment and an alias that span lines. -/
def annotatedUnion : Node :=
  ⟨.select
    { source := some ⟨.tableAlias
        ⟨.setOperation { left := everything "a", op := .union, right := everything "b" }⟩
        "both\ntables"⟩
      comment := some "first\r\nsecond" }⟩

/-- Neither of the combined queries spans lines, so both renderings have the same tokens. -/
theorem render_lines_annotatedUnion :
    ∃ text text' s₁ s₂,
      (Session.mk ⟨.mysql, .oneLine, false⟩ []).render annotatedUnion = .ok (text, s₁)
        ∧ (Session.mk ⟨.mysql, .lines, false⟩ []).render annotatedUnion = .ok (text', s₂)
        ∧ (Reading.mk .mysql true).lex text' = (Reading.mk .mysql true).lex text := by
  have hverbatim : annotatedUnion.NoVerbatim := Node.noVerbatim_of_parts (by decide)
  obtain ⟨text, s₁, h⟩ : ∃ text s₁,
      (Session.mk ⟨.mysql, .oneLine, false⟩ []).render annotatedUnion = .ok (text, s₁) :=
    ⟨_, _, rfl⟩
  obtain ⟨text', s₂, h', -, -, hsame⟩ :=
    @render_lines (Session.mk ⟨.mysql, .lines, false⟩ []) _ _ _ rfl hverbatim h
  refine ⟨text, text', s₁, s₂, h, h', hsame.mpr fun q hq part s' hpart => ?_⟩
  have hcombined : annotatedUnion.combined = [everything "a", everything "b"] := rfl
  rw [hcombined] at hq
  rcases List.mem_pair.mp hq with rfl | rfl
  · obtain rfl : _ = part := (Prod.mk.inj (Except.ok.inj hpart)).1
    decide
  · obtain rfl : _ = part := (Prod.mk.inj (Except.ok.inj hpart)).1
    decide

/-- The rows of two tables, where the name of one spans lines. -/
def splitUnion : Node :=
  ⟨.setOperation { left := everything "a\nb", op := .union, right := everything "c" }⟩

/-- **The layout is not all that changes**: over several lines `splitUnion` reads from another
    table. -/
theorem lines_rename_table :
    ∃ text text' s₁ s₂, splitUnion.NoVerbatim
      ∧ (Session.mk ⟨.postgres, .oneLine, true⟩ []).render splitUnion = .ok (text, s₁)
      ∧ (Session.mk ⟨.postgres, .lines, true⟩ []).render splitUnion = .ok (text', s₂)
      ∧ Token.name "a\nb".toList ∈ (Reading.mk .postgres true).lex text
      ∧ Token.name "a\n\tb".toList ∈ (Reading.mk .postgres true).lex text'
      ∧ (Reading.mk .postgres true).lex text' ≠ (Reading.mk .postgres true).lex text := by
  refine ⟨_, _, _, _, Node.noVerbatim_of_parts (by decide), rfl, rfl, ?_, ?_, ?_⟩
  · decide
  · decide
  · decide

end Session
end SqlTree
