import SqlTree.Proofs.Indentation
import SqlTree.Proofs.Spacing

/-!
# The tokens of a rendering

The text of a tree is read as the tokens of its parts, one part after the other: this is what
makes statements about the parts of a tree statements about the SQL text.

* `Dialect.comparisonFrame` -- what a dialect writes around the two sides of a comparison;
* `Doc.tokens` -- the tokens of a text, part by part, and shifted where lines are moved;
* `Mention.Legible` -- the condition on values, bare names and verbatim SQL: each ends where it
  can be followed by something else;
* `Doc.Spaced.reads`, `Node.lex_spell` -- a rendering is read as these tokens in either layout,
  whatever names and comments it contains.
-/

namespace SqlTree

open Reading

/-! ## 1. Texts between seams -/

/-- A tame text that does not end in a word leaves a gap. -/
theorem read_tame_gap (r : Reading) {s : List Char} {c : Char}
    (hs : ∀ a ∈ s ++ [c], isTame a = true) (hc : NameRule.isWordChar c = false) :
    (r.read .gap (s ++ [c])).1 = .gap := by
  have hgap : Mode.tameIn [] .gap := trivial
  obtain ⟨hmode, _⟩ := read_of_tame r (fun a ha => hs a (List.mem_append_left _ ha)) hgap
  have hstart : (r.start c).1 = .gap := by
    rw [start_of_tame (hs c (by simp)), hc]
    rfl
  rw [read_append, read_cons, read_nil]
  cases hm : (r.read .gap s).1 with
  | gap => exact hstart
  | word w =>
    have hstep : r.step (.word w) c = r.next (.word w) c := if_neg (by rw [hc]; decide)
    rw [hstep]
    exact hstart
  | _ =>
    rw [hm] at hmode
    cases hmode

/-- **A tame text that fits two seams is read between them as its own tokens.** -/
theorem reads_of_tame (r : Reading) {e e' : Seam} {s : String}
    (hs : ∀ c ∈ s.toList, isTame c = true) (hfit : fitsSeams e s e' = true) :
    Reads r s.toList e (r.lex s) e' := by
  have hsettled := (lex_of_tame r hs).1
  have hends : s.toList.getLast?.any (fun c => !NameRule.isWordChar c) = true →
      (r.read .gap s.toList).1 = .gap := by
    intro h
    obtain ⟨c, hlast, hc⟩ := (Option.any_eq_true _ _).mp h
    obtain ⟨front, hfront⟩ := List.getLast?_eq_some_iff.mp hlast
    rw [hfront] at hs ⊢
    exact read_tame_gap r hs (by simpa using hc)
  have hfree : ∀ m' : Mode, m' = (r.read .gap s.toList).1 → fitsSeams e s e' = true → m'.At e' := by
    rintro m' rfl hfit
    cases e' with
    | held => exact hsettled
    | free =>
      cases e with
      | held => exact hends (Bool.and_eq_true_iff.mp hfit).2
      | free =>
        rcases Bool.or_eq_true_iff.mp hfit with hempty | h
        · rw [List.isEmpty_iff.mp hempty]
          rfl
        · exact hends h
  intro m hm
  cases e with
  | free =>
    have hgap : m = .gap := hm
    subst hgap
    exact ⟨_, _, rfl, hfree _ rfl hfit, rfl⟩
  | held =>
    have hstarts : s.toList.head?.all (· ∈ separators) = true := by
      cases e' with
      | held => exact hfit
      | free => exact (Bool.and_eq_true_iff.mp hfit).1
    unfold lex
    cases hlist : s.toList with
    | nil =>
      have hheld : e' = .held := by
        cases e' with
        | held => rfl
        | free => simp [fitsSeams, hlist] at hfit
      subst hheld
      exact ⟨m, [], rfl, hm, by simp [Mode.finish]⟩
    | cons c rest =>
      have hc : c ∈ separators := by simpa [hlist] using hstarts
      have hstep := step_of_separator hc r hm
      have hgap : r.step .gap c = (.gap, separatorTokens c) := start_of_separator hc r
      refine ⟨(r.read .gap (c :: rest)).1, m.finish ++ (r.read .gap (c :: rest)).2, ?_, ?_, ?_⟩
      · rw [read_cons, read_cons, hstep, hgap]
        simp only [List.append_assoc]
      · exact hfree _ (by rw [hlist]) hfit
      · rw [List.append_assoc]

theorem isTame_of_isFixed {c : Char} (hc : isFixed c = true) : isTame c = true :=
  isTame_of_forall rfl hc

theorem isTame_of_allows {rule : NameRule} {c : Char} (hc : rule.allows c = true) :
    isTame c = true := by
  refine isTame_of_forall ?_ hc
  cases rule <;> rfl

/-- A name that its rule accepts is tame. -/
theorem isTame_of_accepts {rule : NameRule} {s : String} (h : rule.accepts s = true) :
    ∀ c ∈ s.toList, isTame c = true := fun c hc =>
  isTame_of_allows (List.all_eq_true.mp (Bool.and_eq_true_iff.mp h).2 c hc)

/-- A tame character that is no placeholder either. -/
def isQuiet (c : Char) : Bool := isTame c && c != '?'

theorem isTame_of_isQuiet {s : String} (h : s.toList.all isQuiet = true) :
    ∀ c ∈ s.toList, isTame c = true := fun c hc =>
  (Bool.and_eq_true_iff.mp (List.all_eq_true.mp h c hc)).1

/-- Slash and minus by themselves are operators: something else may follow them. -/
theorem settled_operator {s : String} (hs : s = "/" ∨ s = "-") (r : Reading) :
    (r.read .gap s.toList).1.settled = true := by
  rcases hs with rfl | rfl
  · show (r.start '/').1.settled = true
    rw [start_slash]
    rfl
  · show (r.start '-').1.settled = true
    rw [start_minus]
    rfl

/-! ## 2. Comparisons -/

/-- What stands before, between and after the two sides of a comparison. -/
structure ComparisonFrame where
  before : String
  between : String
  after : String

/-- A comparison with only a word between its sides. -/
def ComparisonFrame.ofWord (word : String) : ComparisonFrame := ⟨"", word, ""⟩

/-- What a dialect writes around the two sides of a comparison. -/
def Dialect.comparisonFrame : Dialect → ComparisonOp → ComparisonFrame
  | .mysql, .regexMatch => .ofWord " REGEXP "
  | .mysql, .regexNotMatch => .ofWord " NOT REGEXP "
  | .mysql, .caseSensitiveEq => .ofWord " = BINARY "
  | .mysql, .caseInsensitiveEq => .ofWord " = "
  | .sqlite, .regexMatch => .ofWord " REGEXP "
  | .sqlite, .regexNotMatch => .ofWord " NOT REGEXP "
  | .sqlite, .caseSensitiveEq => ⟨"", " = ", " COLLATE BINARY"⟩
  | .sqlite, .caseInsensitiveEq => ⟨"", " = ", " COLLATE NOCASE"⟩
  | .postgres, .caseInsensitiveEq => ⟨"LOWER(", ") = LOWER(", ")"⟩
  | _, op => .ofWord (" " ++ op.word ++ " ")

/-- **A comparison is its two sides in the frame of the dialect.** -/
theorem Dialect.compare_eq (d : Dialect) (op : ComparisonOp) (left right : String) :
    d.compare op left right
      = (d.comparisonFrame op).before ++ left ++ (d.comparisonFrame op).between ++ right
        ++ (d.comparisonFrame op).after := by
  cases d <;> cases op <;>
    simp [compare, commonComparison, comparisonFrame, ComparisonFrame.ofWord, String.append_assoc]

def ComparisonFrame.texts (f : ComparisonFrame) : List String := [f.before, f.between, f.after]

/-- The texts of a frame are quiet and fit around the sides. -/
def ComparisonFrame.Fits (f : ComparisonFrame) : Prop :=
  (∀ s ∈ f.texts, s.toList.all isQuiet = true)
    ∧ fitsSeams .free f.before .free = true ∧ fitsSeams .held f.between .free = true
    ∧ fitsSeams .held f.after .held = true

instance (f : ComparisonFrame) : Decidable f.Fits := inferInstanceAs (Decidable (_ ∧ _ ∧ _ ∧ _))

theorem Dialect.comparisonFrame_fits (d : Dialect) (op : ComparisonOp) :
    (d.comparisonFrame op).Fits := by
  cases d <;> cases op <;> decide

/-! ## 3. The tokens of a text -/

/-- The reading of what a spelling writes. -/
def Spelling.reading (how : Spelling) (literals : Bool) : Reading := ⟨how.dialect, literals⟩

section Tokens

variable (how : Spelling) (literals : Bool)

/-- The tokens of a text, part by part. -/
def Doc.tokens : Doc → Nat → List Token
  | .text s, _ => (how.reading literals).lex s
  | .name s, _ => [.name s.toList]
  | .bare _ s, _ => (how.reading literals).lex s
  | .value v, bound => (how.reading literals).lex (how.value v bound)
  | .raw sql _, _ => (how.reading literals).lex sql
  | .comment mark s, _ => [.comment (commentInside mark s)]
  | .comparison op left right, bound =>
    (how.reading literals).lex (how.dialect.comparisonFrame op).before ++ tokens left bound
      ++ (how.reading literals).lex (how.dialect.comparisonFrame op).between
      ++ tokens right (bound + left.slots)
      ++ (how.reading literals).lex (how.dialect.comparisonFrame op).after
  | .paren body, bound => .mark '(' :: (tokens body bound ++ [.mark ')'])
  | .indented body, bound => (tokens body bound).map Token.shifted
  | .append left right, bound => tokens left bound ++ tokens right (bound + left.slots)

/-- The reader can end its token where a mention ends. -/
def Mention.Legible : Mention → Prop
  | .value v => ∀ bound, ((how.reading literals).read .gap (how.value v bound).toList).1.settled
  | .verbatim sql _ => ((how.reading literals).read .gap sql.toList).1.settled
  | .bare _ s => ((how.reading literals).read .gap s.toList).1.settled

variable {how literals}

/-- Parentheses may stand anywhere. -/
theorem reads_paren {r : Reading} {s : List Char} {ts : List Token} (e e' : Seam)
    (h : Reads r s .free ts .held) :
    Reads r ('(' :: (s ++ [')'])) e (.mark '(' :: (ts ++ [.mark ')'])) e' := by
  have hopen : Reads r ['('] e [.mark '('] .free := reads_separator (by decide) r e .free
  have hclose : Reads r [')'] .held [.mark ')'] e' := reads_separator (by decide) r .held e'
  have hall := hopen.append (h.append hclose)
  rwa [List.singleton_append, List.singleton_append] at hall

/-- Words that group follow a held token, or begin a text. -/
theorem reads_groupWord {s : String} {e e' : Seam}
    (hs : (s.toList.all isTame && fitsSeams e s e') = true) (r : Reading) :
    Reads r s.toList e (r.lex s) e' := by
  obtain ⟨htame, hfit⟩ := Bool.and_eq_true_iff.mp hs
  exact reads_of_tame r (List.all_eq_true.mp htame) hfit

theorem reads_rangeWord {word : String} (hw : word ∈ rangeWords) (r : Reading) :
    Reads r word.toList .held (r.lex word) .free := by
  rcases List.mem_pair.mp hw with rfl | rfl
  · exact reads_groupWord rfl r
  · exact reads_groupWord rfl r

/-- **A text whose parts fit is read as its tokens**, if what it mentions is legible. -/
theorem Doc.Spaced.reads {layout : Layout} {inside : Bool} {e e' : Seam} {d : Doc}
    (h : Doc.Spaced layout inside e d e') (hm : ∀ m ∈ d.mentions, m.Legible how literals) :
    ∀ bound, Reads (how.reading literals) (how.spell d bound).toList e
      (d.tokens how literals bound) e' := by
  induction h with
  | text h =>
    intro bound
    refine reads_of_tame _ (fun c hc => ?_) (fitsSeams_of_fixedText h)
    exact isTame_of_isFixed (isFixed_of_fixedText h c hc)
  | or =>
    have hor : Reads (how.reading literals) " OR ".toList .held
        ((how.reading literals).lex " OR ") .free := reads_groupWord rfl _
    exact fun bound => hor
  | operator h =>
    intro bound
    refine reads_lex ?_
    rcases List.mem_pair.mp h with rfl | rfl
    · exact settled_operator (.inl rfl) _
    · exact settled_operator (.inr rfl) _
  | name s => exact fun bound => reads_quote (how.reading literals) s
  | bare h s => exact fun bound => reads_lex (hm _ List.mem_cons_self)
  | value v => exact fun bound => reads_lex (hm _ List.mem_cons_self bound)
  | raw sql binds => exact fun bound => reads_lex (hm _ List.mem_cons_self)
  | comment h s => exact fun bound => reads_comment (how.reading literals) h s _
  | comparison op hl hr ihl ihr =>
    rename_i l r
    intro bound
    have hleft := ihl (fun m hm' => hm m (List.mem_append_left _ hm')) bound
    have hright := ihr (fun m hm' => hm m (List.mem_append_right _ hm')) (bound + l.slots)
    obtain ⟨hquiet, hbefore, hbetween, hafter⟩ := how.dialect.comparisonFrame_fits op
    have hframe : ∀ s ∈ (how.dialect.comparisonFrame op).texts, ∀ c ∈ s.toList,
        isTame c = true := fun s hs => isTame_of_isQuiet (hquiet s hs)
    have hfirst := reads_of_tame (how.reading literals) (hframe _ List.mem_cons_self) hbefore
    have hsecond := reads_of_tame (how.reading literals)
      (hframe _ (List.mem_cons_of_mem _ List.mem_cons_self)) hbetween
    have hthird := reads_of_tame (how.reading literals)
      (hframe _ (List.mem_cons_of_mem _ (List.mem_cons_of_mem _ List.mem_cons_self))) hafter
    show Reads _ (how.dialect.compare op _ _).toList _ _ _
    rw [Dialect.compare_eq]
    simp only [String.toList_append]
    exact (((hfirst.append hleft).append hsecond).append hright).append hthird
  | paren h ih =>
    intro bound
    have hbody := ih hm bound
    show Reads _ ("(" ++ _ ++ ")" : String).toList _ _ _
    simp only [String.toList_append]
    exact reads_paren _ _ hbody
  | indented hl h ih => exact fun bound => (ih hm bound).indent
  | range hw hd hlow ihd ihlow =>
    rename_i d low word
    intro bound
    simp only [Doc.mentions_append, Doc.mentions_text, List.append_nil,
      List.forall_mem_append] at hm
    have hfirst := ihd hm.1 bound
    have hlower := ihlow hm.2 (bound + (d ++ Doc.text word).slots)
    have hword := reads_rangeWord hw (how.reading literals)
    have hand : ∀ e', Reads (how.reading literals) " AND ".toList .held
        ((how.reading literals).lex " AND ") e' := by
      intro e'
      cases e' with
      | free => exact reads_groupWord rfl _
      | held => exact reads_groupWord rfl _
    show Reads _ (_ ++ _ ++ _ ++ _ : String).toList _ _ _
    simp only [String.toList_append]
    exact ((hfirst.append hword).append hlower).append (hand _)
  | choice hd hb ho ihd ihb iho =>
    rename_i d branches otherwise
    intro bound
    simp only [Doc.mentions_append, Doc.mentions_text, List.append_nil, List.nil_append,
      List.forall_mem_append] at hm
    have hoperand := ihd hm.1.1 (bound + (Doc.text "CASE").slots)
    have hbranches := ihb hm.1.2 (bound + (Doc.text "CASE" ++ d).slots)
    have helse := iho hm.2 (bound + (Doc.text "CASE" ++ d ++ branches).slots)
    have hcase : Reads (how.reading literals) "CASE".toList .free
        ((how.reading literals).lex "CASE") .held := reads_groupWord rfl _
    have hend : Reads (how.reading literals) " END".toList .held
        ((how.reading literals).lex " END") .held := reads_groupWord rfl _
    show Reads _ (_ ++ _ ++ _ ++ _ ++ _ : String).toList _ _ _
    simp only [String.toList_append]
    exact (((hcase.append hoperand).append hbranches).append helse).append hend
  | append hl hr ihl ihr =>
    rename_i l r
    intro bound
    have hleft := ihl (fun m hm' => hm m (List.mem_append_left _ hm')) bound
    have hright := ihr (fun m hm' => hm m (List.mem_append_right _ hm')) (bound + l.slots)
    show Reads _ (_ ++ _ : String).toList _ _ _
    rw [String.toList_append]
    exact hleft.append hright

/-- **A rendering is read as the tokens of its parts**, if what it mentions is legible. -/
theorem Node.lex_spell {layout : Layout} {n : Node}
    (hm : ∀ m ∈ n.visited.flatMap Node.mentioned, m.Legible how literals) (bound : Nat) :
    (how.reading literals).lex (how.spell (n.doc layout) bound)
      = (n.doc layout).tokens how literals bound := by
  have hdoc : ∀ m ∈ (n.doc layout).mentions, m.Legible how literals := by
    rw [n.mentions_doc]
    exact hm
  exact ((n.spaced_doc layout).reads hdoc bound).lex_eq

/-- A bare name that its rule accepts is legible. -/
theorem Mention.legible_bare {rule : NameRule} {s : String} (h : rule.accepts s = true) :
    (Mention.bare rule s).Legible how literals := (lex_of_tame _ (isTame_of_accepts h)).1

end Tokens
end SqlTree
