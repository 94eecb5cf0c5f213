import SqlTree.Proofs.Nesting

/-!
# Type names and the end of a cast

Type names are written as they are, and may hold parentheses. Which one closes the parenthesis
behind `CAST` depends on the type name alone: it is the last character of the text if the type name
pairs its own parentheses, and only then.

* `partner?` -- the parenthesis that closes one opened before some tokens, by depth;
* `partner?_append`, `partner?_of_depthAfter_eq_none` -- whether it stands among some tokens or
  behind them, from the depth that they leave;
* `partner?_close` -- the three places for it if a parenthesis is put behind some tokens;
* `lex_castFront` -- what a cast is read as, whatever its value is;
* `Session.render_cast` -- where the parenthesis of a cast is closed, for every value and accepted
  type name, and `Session.not_castsCloseLast`, a type name that closes it early.
-/

namespace SqlTree

open Reading

/-! ## 1. Partners -/

/-- The tokens up to the parenthesis that closes one opened before them, and the tokens behind it.
    Up to there `depth` more are open. -/
def partner? : Nat → List Token → Option (List Token × List Token)
  | _, [] => none
  | depth, t :: rest =>
    match t.bracket? with
    | none => (partner? depth rest).map (Prod.map (t :: ·) id)
    | some .opens => (partner? (depth + 1) rest).map (Prod.map (t :: ·) id)
    | some .closes =>
      match depth with
      | 0 => some ([], rest)
      | depth + 1 => (partner? depth rest).map (Prod.map (t :: ·) id)

section Partners

variable {depth after : Nat} {t : Token} {ts : List Token}

theorem brackets_cons_of_some {b : Bracket} (h : t.bracket? = some b) :
    brackets (t :: ts) = b :: brackets ts :=
  List.filterMap_cons_some h

theorem brackets_cons_of_none (h : t.bracket? = none) : brackets (t :: ts) = brackets ts :=
  List.filterMap_cons_none h

/-- Only one token closes parentheses. -/
theorem Token.eq_of_closes (h : t.bracket? = some .closes) : t = .mark ')' := by
  cases t with
  | mark c =>
    have hc : bracketOf c = some .closes := h
    unfold bracketOf at hc
    split_ifs at hc with hopen hclose
    · cases hc
    · rw [hclose]
  | _ => cases h

/-- **Tokens that leave a depth behind them close nothing from before**: the partner stands in what
    follows. -/
theorem partner?_append (h : depthAfter depth (brackets ts) = some after) (us : List Token) :
    partner? depth (ts ++ us) = (partner? after us).map (Prod.map (ts ++ ·) id) := by
  induction ts generalizing depth with
  | nil =>
    obtain rfl : depth = after := Option.some.inj h
    rw [List.nil_append]
    exact Option.map_id'.symm
  | cons t rest ih =>
    have hpush : ∀ d, depthAfter d (brackets rest) = some after →
        (partner? d (rest ++ us)).map (Prod.map (t :: ·) id)
          = (partner? after us).map (Prod.map (t :: rest ++ ·) id) := by
      intro d hd
      rw [ih hd, Option.map_map]
      rfl
    simp only [List.cons_append, partner?]
    cases hb : t.bracket? with
    | none =>
      rw [brackets_cons_of_none hb] at h
      exact hpush depth h
    | some b =>
      rw [brackets_cons_of_some hb] at h
      cases b with
      | opens => exact hpush (depth + 1) h
      | closes =>
        cases depth with
        | zero => cases h
        | succ depth => exact hpush depth h

/-- **Tokens that close one parenthesis more than is open hold the partner**, whatever follows. -/
theorem partner?_of_depthAfter_eq_none (h : depthAfter depth (brackets ts) = none) :
    ∃ early late, ts = early ++ .mark ')' :: late
      ∧ ∀ us, partner? depth (ts ++ us) = some (early, late ++ us) := by
  induction ts generalizing depth with
  | nil => cases h
  | cons t rest ih =>
    have hpush : ∀ d, depthAfter d (brackets rest) = none →
        ∃ early late, t :: rest = early ++ .mark ')' :: late
          ∧ ∀ us, (partner? d (rest ++ us)).map (Prod.map (t :: ·) id)
            = some (early, late ++ us) := by
      intro d hd
      obtain ⟨early, late, hsplit, hpartner⟩ := ih hd
      refine ⟨t :: early, late, by rw [hsplit]; rfl, fun us => ?_⟩
      rw [hpartner]
      rfl
    simp only [List.cons_append, partner?]
    cases hb : t.bracket? with
    | none =>
      rw [brackets_cons_of_none hb] at h
      exact hpush depth h
    | some b =>
      rw [brackets_cons_of_some hb] at h
      cases b with
      | opens => exact hpush (depth + 1) h
      | closes =>
        cases depth with
        | zero => exact ⟨[], rest, by rw [Token.eq_of_closes hb]; rfl, fun us => rfl⟩
        | succ depth => exact hpush depth h

/-- **With one parenthesis more at the end, there are three places for the partner**: there, if the
    tokens in front of it are balanced, among them, if they close too much, and nowhere, if they
    leave one open. -/
theorem partner?_close (ts : List Token) :
    (partner? 0 (ts ++ [.mark ')']) = some (ts, []) ↔ Balanced (brackets ts))
      ∧ ((∃ early late, ts = early ++ .mark ')' :: late
          ∧ partner? 0 (ts ++ [.mark ')']) = some (early, late ++ [.mark ')']))
        ↔ depthAfter 0 (brackets ts) = none)
      ∧ (partner? 0 (ts ++ [.mark ')']) = none
        ↔ ∃ depth, depthAfter 0 (brackets ts) = some (depth + 1)) := by
  have hlast : partner? 0 [.mark ')'] = some ([], []) := rfl
  have hopen : ∀ depth, partner? (depth + 1) [.mark ')'] = none := fun depth => rfl
  -- in each case one of the three holds and excludes the other two
  unfold Balanced
  cases hdepth : depthAfter 0 (brackets ts) with
  | none =>
    obtain ⟨early, late, hsplit, hpartner⟩ := partner?_of_depthAfter_eq_none hdepth
    rw [hpartner]
    simpa using hsplit
  | some depth =>
    rw [partner?_append hdepth]
    cases depth with
    | zero => simp [hlast]
    | succ depth => simp [hopen]

end Partners

/-! ## 2. Casts -/

/-- The text of a cast up to its last character. -/
def castFront (value typeName : String) : String := "CAST(" ++ value ++ " AS " ++ typeName

/-- The tokens between the parenthesis of a cast and its type name. -/
def castOperand (r : Reading) (value : String) : List Token := r.lex value ++ [.word "AS".toList]

section Casts

variable {typeName : String}

/-- No value brings a parenthesis along. -/
theorem brackets_castOperand (how : Spelling) (v : Value) (bound : Nat) :
    brackets (castOperand (how.reading true) (how.value v bound)) = [] := by
  refine List.filterMap_eq_nil_iff.mpr fun t ht => ?_
  rcases List.mem_append.mp ht with ht | ht
  · exact Token.bracket?_of_isInert ((how.inert_value v bound).2 t ht)
  · rw [List.mem_singleton.mp ht]
    rfl

/-- **A cast is read as its keyword, a parenthesis, the value and the type name**, whatever the
    value is, and its last character is a token of its own. -/
theorem lex_castFront (how : Spelling) (v : Value) (bound : Nat)
    (h : NameRule.type.accepts typeName = true) :
    let r := how.reading true
    let value := how.value v bound
    let inside := castOperand r value ++ r.lex typeName
    r.lex (castFront value typeName) = .word "CAST".toList :: .mark '(' :: inside
      ∧ r.lex (castFront value typeName ++ ")")
        = .word "CAST".toList :: .mark '(' :: (inside ++ [.mark ')']) := by
  intro r value inside
  have hwords : r.lex "CAST(" = [.word "CAST".toList, .mark '(']
      ∧ r.lex " AS " = [.word "AS".toList] := by
    cases hdialect : how.dialect <;> simp only [r, Spelling.reading, hdialect] <;> decide
  have hopen : Reads r "CAST(".toList .free [.word "CAST".toList, .mark '('] .free :=
    hwords.1 ▸ reads_groupWord rfl r
  have hvalue : Reads r value.toList .free (r.lex value) .held :=
    reads_lex (how.inert_value v bound).1
  have has : Reads r " AS ".toList .held [.word "AS".toList] .free :=
    hwords.2 ▸ reads_groupWord rfl r
  have hlegible : (Mention.bare .type typeName).Legible how true := Mention.legible_bare h
  have hname : Reads r typeName.toList .free (r.lex typeName) .held := reads_lex hlegible
  have hclose : Reads r ")".toList .held [.mark ')'] .held :=
    reads_separator (by decide) r .held .held
  have hfront : Reads r (castFront value typeName).toList .free
      (.word "CAST".toList :: .mark '(' :: inside) .held := by
    have hall := hopen.append ((hvalue.append has).append hname)
    simp only [castFront, inside, castOperand, String.toList_append, List.append_assoc] at hall ⊢
    exact hall
  have htext : Reads r (castFront value typeName ++ ")").toList .free
      (.word "CAST".toList :: .mark '(' :: (inside ++ [.mark ')'])) .held := by
    rw [String.toList_append]
    exact hfront.append hclose
  exact ⟨hfront.lex_eq, htext.lex_eq⟩

/-- A cast is written so. -/
theorem spell_cast (how : Spelling) (layout : Layout) (v : Value) (typeName : String)
    (bound : Nat) :
    how.spell ((Node.mk (.cast v typeName)).doc layout) bound
      = castFront (how.value v bound) typeName ++ ")" := by
  rw [Node.doc_mk]
  show "CAST" ++ ("(" ++ (how.value v bound ++ " AS " ++ typeName) ++ ")") = _
  unfold castFront
  simp only [← String.append_assoc]
  rfl

/-- A cast is refused only for its type name. -/
theorem fault?_cast (layout : Layout) (v : Value) (h : NameRule.type.accepts typeName = true) :
    ((Node.mk (.cast v typeName)).doc layout).fault? = none := by
  rw [Node.doc_mk]
  show none.or (none.or (if NameRule.type.accepts typeName then none else _)) = none
  rw [if_pos h]
  rfl

end Casts

/-! ## 3. Renderings -/

namespace Session

/-- **Where the parenthesis of a cast is closed depends on the type name alone**, for every session,
    value and accepted type name: by the last character of the text and by no earlier one if and
    only if the type name pairs its own parentheses; inside the type name if and only if that
    somewhere closes more than it has opened; and nowhere if and only if it leaves one open.
    Parentheses in the value, as in a text literal, count for nothing. -/
theorem render_cast {typeName : String} (h : NameRule.type.accepts typeName = true) (s : Session)
    (v : Value) :
    let r : Reading := ⟨s.renderer.dialect, true⟩
    let value := s.renderer.spelling.value v s.index
    let operand := castOperand r value
    let name := r.lex typeName
    (∃ s', s.render ⟨.cast v typeName⟩ = .ok (castFront value typeName ++ ")", s'))
      ∧ r.lex (castFront value typeName) = .word "CAST".toList :: .mark '(' :: (operand ++ name)
      ∧ r.lex (castFront value typeName ++ ")")
        = .word "CAST".toList :: .mark '(' :: (operand ++ name ++ [.mark ')'])
      ∧ (partner? 0 (operand ++ name ++ [.mark ')']) = some (operand ++ name, [])
        ↔ Balanced (Text.brackets typeName))
      ∧ ((∃ early late, name = early ++ .mark ')' :: late
          ∧ partner? 0 (operand ++ name ++ [.mark ')'])
            = some (operand ++ early, late ++ [.mark ')']))
        ↔ depthAfter 0 (Text.brackets typeName) = none)
      ∧ (partner? 0 (operand ++ name ++ [.mark ')']) = none
        ↔ ∃ depth, depthAfter 0 (Text.brackets typeName) = some (depth + 1)) := by
  intro r value operand name
  have hname : brackets name = Text.brackets typeName :=
    brackets_lex_of_tame r (isTame_of_accepts h)
  have hnone : brackets operand = [] := brackets_castOperand s.renderer.spelling v s.index
  have hoperand : depthAfter 0 (brackets operand) = some 0 := by
    rw [hnone]
    rfl
  -- the value is passed over, so the type name decides
  have hmove := partner?_append hoperand (name ++ [.mark ')'])
  have hsome : ∀ front back,
      partner? 0 (operand ++ name ++ [.mark ')']) = some (operand ++ front, back)
        ↔ partner? 0 (name ++ [.mark ')']) = some (front, back) := by
    intro front back
    rw [List.append_assoc, hmove]
    simp
  obtain ⟨hlast, hearly, hnever⟩ := partner?_close name
  obtain ⟨hfront, htext⟩ := lex_castFront s.renderer.spelling v s.index h
  have hrender : ∃ s', s.render ⟨.cast v typeName⟩ = .ok (castFront value typeName ++ ")", s') :=
    ⟨_, render_eq_ok_iff.mpr ⟨fault?_cast _ v h, (spell_cast ..).symm, rfl⟩⟩
  refine ⟨hrender, hfront, htext, ?_, ?_, ?_⟩
  · rw [hsome, hlast, hname]
  · simp only [hsome]
    rw [hearly, hname]
  · rw [List.append_assoc, hmove, Option.map_eq_none_iff, hnever, hname]

/-- A type name with two pairs of parentheses behind a text literal with one that closes. -/
theorem render_cast_numeric :
    ∃ text s', (Session.mk ⟨.mysql, .oneLine, false⟩ []).render
        ⟨.cast (.text "\\\x27) AS (") "NUMERIC(10, (2))"⟩ = .ok (text ++ ")", s')
      ∧ ∃ inside, (Reading.mk .mysql true).lex (text ++ ")")
          = .word "CAST".toList :: .mark '(' :: (inside ++ [.mark ')'])
        ∧ partner? 0 (inside ++ [.mark ')']) = some (inside, []) := by
  have haccepts : NameRule.type.accepts "NUMERIC(10, (2))" = true := by decide
  obtain ⟨⟨s', hrender⟩, -, htext, hlast, -, -⟩ :=
    render_cast haccepts ⟨⟨.mysql, .oneLine, false⟩, []⟩ (.text "\\\x27) AS (")
  exact ⟨_, s', hrender, _, htext, hlast.mpr (by decide)⟩

/-- No accepted type name moves the end of its cast: the last character closes it. -/
def CastsCloseLast : Prop :=
  ∀ (s : Session) (v : Value) (typeName : String), NameRule.type.accepts typeName = true →
    ∃ front s', s.render ⟨.cast v typeName⟩ = .ok (front ++ ")", s')
      ∧ ∃ inside, (Reading.mk s.renderer.dialect true).lex (front ++ ")")
          = .word "CAST".toList :: .mark '(' :: (inside ++ [.mark ')'])
        ∧ partner? 0 (inside ++ [.mark ')']) = some (inside, [])

/-- The tokens of `$1 AS int) OR (1)`. -/
def escapedCast : List Token :=
  [.slot ['1'], .word "AS".toList, .word "int".toList, .mark ')', .word "OR".toList, .mark '(',
    .word ['1'], .mark ')']

/-- **An accepted type name closes its cast early**: the rule looks at one character at a time. What
    follows the type is then a condition of its own. -/
theorem not_castsCloseLast :
    NameRule.type.accepts "int) OR (1" = true
      ∧ (∃ s', (Session.mk ⟨.postgres, .oneLine, true⟩ []).render
          ⟨.cast (.int 1) "int) OR (1"⟩ = .ok ("CAST($1 AS int) OR (1)", s'))
      ∧ (Reading.mk .postgres true).lex "CAST($1 AS int) OR (1)"
        = .word "CAST".toList :: .mark '(' :: escapedCast
      ∧ partner? 0 escapedCast = some (escapedCast.take 3, escapedCast.drop 4)
      ∧ ¬ CastsCloseLast := by
  have haccepts : NameRule.type.accepts "int) OR (1" = true := by decide
  have hrender : ∃ s', (Session.mk ⟨.postgres, .oneLine, true⟩ []).render
      ⟨.cast (.int 1) "int) OR (1"⟩ = .ok ("CAST($1 AS int) OR (1)", s') := ⟨_, rfl⟩
  have hlex : (Reading.mk .postgres true).lex "CAST($1 AS int) OR (1)"
      = .word "CAST".toList :: .mark '(' :: escapedCast := by decide
  have hearly : partner? 0 escapedCast = some (escapedCast.take 3, escapedCast.drop 4) := rfl
  refine ⟨haccepts, hrender, hlex, hearly, fun hclaim => ?_⟩
  obtain ⟨front, s', hok, inside, htokens, hlast⟩ :=
    hclaim ⟨⟨.postgres, .oneLine, true⟩, []⟩ (.int 1) _ haccepts
  obtain ⟨s'', hok'⟩ := hrender
  obtain ⟨htext, -⟩ := Prod.mk.inj (Except.ok.inj (hok.symm.trans hok'))
  rw [htext, hlex] at htokens
  obtain ⟨-, htail⟩ := List.cons.inj (List.cons.inj htokens).2
  rw [← htail, hearly] at hlast
  cases (Prod.mk.inj (Option.some.inj hlast)).2

end Session
end SqlTree
