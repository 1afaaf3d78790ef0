import Calculator.Proofs.Evaluation.CallGraph
import Calculator.Proofs.Grammar.FreeVariable

/-!
# Where a name occurs

A name token of a phrase is a bare name of its tree or the name of a call, and every such name
is a token.  In a text the letter `x` is a whole word exactly where it is a token: in a literal
it stands behind a zero, and in a longer name next to another character of the name.
-/

namespace Calculator

/-- The name occurs in the expression, bare or as the name of a call. -/
def Expr.HasName (name : String) (t : Expr) : Prop :=
  t.mentions name = true ∨ t.Calls name

namespace Grammar

/-! ## Tokens and trees -/

theorem mem_or_exists_of_mem_intercalate {α : Type} {a : α} {sep : List α}
    {words : List (List α)} (h : a ∈ sep.intercalate words) :
    a ∈ sep ∨ ∃ word ∈ words, a ∈ word := by
  induction words with
  | nil => simp at h
  | cons first rest ih =>
      cases rest with
      | nil => exact .inr ⟨first, by simp, by simpa using h⟩
      | cons second rest =>
          rw [List.intercalate_cons_cons, List.mem_append, List.mem_append] at h
          rcases h with (h | h) | h
          · exact .inr ⟨first, by simp, h⟩
          · exact .inl h
          · obtain hsep | ⟨word, hword, ha⟩ := ih h
            · exact .inl hsep
            · exact .inr ⟨word, List.mem_cons_of_mem _ hword, ha⟩

theorem anyMentions_of_mem {name : String} {ts : List Expr} {t : Expr} (ht : t ∈ ts)
    (h : t.mentions name = true) : Expr.anyMentions name ts = true := by
  induction ts with
  | nil => simp at ht
  | cons first rest ih =>
      rw [Expr.anyMentions, Bool.or_eq_true]
      rcases List.mem_cons.mp ht with rfl | ht
      · exact .inl h
      · exact .inr (ih ht)

/-- A name of an argument is a name of the call. -/
theorem hasName_call {name other : String} {ts : List Expr} {t : Expr} (ht : t ∈ ts)
    (h : t.HasName name) : (Expr.call other ts).HasName name := by
  rcases h with hmentions | hcalls
  · exact .inl (by rw [Expr.mentions, anyMentions_of_mem ht hmentions])
  · exact .inr (.argument ht hcalls)

/-- A name among the tokens of a phrase occurs in its tree. -/
theorem Derives.hasName {c : Category} {w : List Token} {t : Expr} {name : String}
    (h : Derives c w t) (hmem : Token.identifier name ∈ w) : t.HasName name := by
  induction h with
  | number _ => simp at hmem
  | identifier other =>
      obtain rfl : name = other := by simpa using hmem
      exact .inl (by simp [Expr.mentions])
  | call other arguments _ ih =>
      simp only [List.mem_cons, Token.identifier.injEq, reduceCtorEq, false_or, List.mem_append,
        List.not_mem_nil, or_false] at hmem
      rcases hmem with rfl | hmem
      · exact .inr (.here _)
      · obtain hcomma | ⟨word, hword, hname⟩ := mem_or_exists_of_mem_intercalate hmem
        · simp at hcomma
        · obtain ⟨a, ha, rfl⟩ := List.mem_map.mp hword
          exact hasName_call (List.mem_map_of_mem ha) (ih a ha hname)
  | group _ ih =>
      refine ih ?_
      simpa using hmem
  | sign _ _ ih =>
      have hoperand := ih (by simpa using hmem)
      exact hoperand.imp id .operand
  | binary _ _ ihleft ihright =>
      simp only [List.mem_append, List.mem_cons, reduceCtorEq, false_or] at hmem
      rcases hmem with hmem | hmem
      · exact (ihleft hmem).imp (fun h => by rw [Expr.mentions, h, Bool.true_or]) .left
      · exact (ihright hmem).imp (fun h => by rw [Expr.mentions, h, Bool.or_true]) .right
  | loosen _ _ ih => exact ih hmem

/-- The name of a call in a tree is a token of its phrase. -/
theorem Derives.mem_of_calls {c : Category} {w : List Token} {t : Expr} {name : String}
    (h : Derives c w t) (hcalls : t.Calls name) : Token.identifier name ∈ w := by
  induction h with
  | number _ => cases hcalls
  | identifier _ => cases hcalls
  | call other arguments _ ih =>
      cases hcalls with
      | here => exact List.mem_cons_self
      | argument hmem hcalls =>
          obtain ⟨a, ha, rfl⟩ := List.mem_map.mp hmem
          have hword : Token.identifier name ∈ [Token.comma].intercalate (arguments.map Prod.fst) :=
            mem_intercalate (List.mem_map_of_mem ha) (ih a ha hcalls)
          simp [hword]
  | group _ ih => simp [ih hcalls]
  | sign _ _ ih =>
      cases hcalls with
      | operand hcalls => simp [ih hcalls]
  | binary _ _ ihleft ihright =>
      cases hcalls with
      | left hcalls => simp [ihleft hcalls]
      | right hcalls => simp [ihright hcalls]
  | loosen _ _ ih => exact ih hcalls

/-- The names among the tokens of a phrase are those of its tree. -/
theorem Derives.identifier_mem_iff {c : Category} {w : List Token} {t : Expr} {name : String}
    (h : Derives c w t) : Token.identifier name ∈ w ↔ t.HasName name :=
  ⟨h.hasName, fun hname => hname.elim h.identifier_mem h.mem_of_calls⟩

/-! ## Words and tokens -/

theorem isWordChar_of_isNameChar {c : Char} (h : Token.isNameChar c = true) :
    Text.isWordChar c = true := by
  rw [Token.isNameChar, Bool.or_eq_true, beq_iff_eq] at h
  rcases h with h | rfl
  · exact Text.isWordChar_of_isAlphanum h
  · decide

/-- A word of one character has nothing but itself in a stretch of name characters. -/
theorem eq_nil_of_isBoundary {letter : Char} {front more rest : List Char}
    (hnames : ∀ c ∈ front ++ letter :: more, Token.isNameChar c = true)
    (hboundary : Text.IsBoundary front (more ++ rest)) : front = [] ∧ more = [] := by
  constructor
  · cases hlast : front.getLast? with
    | none => exact List.getLast?_eq_none_iff.mp hlast
    | some c =>
        have hname := hnames c (List.mem_append_left _ (List.mem_of_getLast? hlast))
        have hnot := hboundary.1 c hlast
        rw [isWordChar_of_isNameChar hname] at hnot
        cases hnot
  · cases more with
    | nil => rfl
    | cons c more =>
        have hname := hnames c (by simp)
        have hnot := hboundary.2 c rfl
        rw [isWordChar_of_isNameChar hname] at hnot
        cases hnot

/-- The letter `x` stands in no literal but behind the zero of a radix. -/
theorem x_not_mem_plain (cs : List Char) : 'x' ∉ Token.numberPart.plain cs := by
  intro h
  rw [Token.numberPart.plain, List.mem_append] at h
  rcases h with h | h
  · exact absurd (List.all_eq_true.mp List.all_takeWhile 'x' h) (by decide)
  · rcases Token.exponentPart_eq_nil_or (cs.dropWhile Token.isDigitOrPoint) with
      hnil | ⟨mark, sign, digits, _, heq, _, hmark, hsign, _, hdigits⟩
    · simp [hnil] at h
    · rw [heq, List.mem_cons, List.mem_append] at h
      rcases h with rfl | h | h
      · simp at hmark
      · rcases hsign with rfl | rfl | rfl <;> simp at h
      · exact absurd (hdigits 'x' h) (by decide)

/-- A literal has a radix, and then it consists of name characters, or it is plain. -/
theorem numberPart_cases (cs : List Char) :
    ('0' ∈ (Token.numberPart cs).head? ∧ ∀ c ∈ Token.numberPart cs, Token.isNameChar c = true) ∨
      Token.numberPart cs = Token.numberPart.plain cs := by
  unfold Token.numberPart
  split
  · next letter digits =>
      split
      · next hletter =>
          refine .inl ⟨rfl, ?_⟩
          intro c hc
          rw [List.mem_cons, List.mem_cons] at hc
          rcases hc with rfl | rfl | hc
          · decide
          · simp only [Token.isRadixLetter, Bool.or_eq_true, beq_iff_eq] at hletter
            rcases hletter with ((((rfl | rfl) | rfl) | rfl) | rfl) | rfl <;> decide
          · exact List.all_eq_true.mp List.all_takeWhile c hc
      · exact .inr rfl
  · exact .inr rfl

/-- A literal holds `x` as no word of its own. -/
theorem not_isBoundary_of_numberPart {cs front more rest : List Char}
    (h : Token.numberPart cs = front ++ 'x' :: more) :
    ¬ Text.IsBoundary front (more ++ rest) := by
  intro hboundary
  rcases numberPart_cases cs with ⟨hzero, hnames⟩ | hplain
  · rw [h] at hzero hnames
    obtain ⟨rfl, -⟩ := eq_nil_of_isBoundary hnames hboundary
    cases hzero
  · refine x_not_mem_plain cs ?_
    rw [← hplain, h]
    simp

/-- A token that holds `x` as a word of its own is the name `x`. -/
theorem eq_identifier_of_isBoundary {c : Char} {cs front more rest : List Char} {t : Token}
    (hfirst : Token.first? c cs = some t) (hcontent : t.content.toList = front ++ 'x' :: more)
    (hboundary : Text.IsBoundary front (more ++ rest)) :
    t = .identifier (String.singleton 'x') := by
  have hmem : 'x' ∈ t.content.toList := by simp [hcontent]
  rcases Token.first?_eq_some hfirst with ⟨-, rfl⟩ | ⟨-, rfl⟩ | ⟨-, -, rfl⟩ | ⟨hone, -, -, hword⟩
  · rw [Token.content, String.toList_ofList] at hcontent
    exact absurd hboundary (not_isBoundary_of_numberPart hcontent)
  · rw [Token.content, String.toList_ofList] at hcontent
    have hnames : ∀ d ∈ front ++ 'x' :: more, Token.isNameChar d = true := by
      rw [← hcontent]
      exact List.all_eq_true.mp List.all_takeWhile
    obtain ⟨rfl, rfl⟩ := eq_nil_of_isBoundary hnames hboundary
    rw [hcontent]
    rfl
  · exact absurd (Token.eq_star_of_mem_starStar hmem) (by decide)
  · rw [hone, List.mem_singleton] at hmem
    rw [← hmem] at hword
    exact absurd hword (by decide)

/-- Where `x` is a whole word of a text, it is one of the tokens. -/
theorem identifier_mem_of_standsAlone {cs : List Char} {ts : List Token} {afterWord : Bool}
    (hcut : Token.Cut cs ts) (h : Text.standsAlone 'x' afterWord cs = true) :
    Token.identifier (String.singleton 'x') ∈ ts := by
  induction hcut generalizing afterWord with
  | nil => simp [Text.standsAlone] at h
  | @blank c cs ts hblank _ ih =>
      rw [Text.standsAlone, Bool.or_eq_true] at h
      rcases h with h | h
      · simp only [Bool.and_eq_true, beq_iff_eq] at h
        obtain ⟨⟨rfl, -⟩, -⟩ := h
        exact absurd hblank (by decide)
      · exact ih h
  | @token c cs t ts _ hfirst _ ih =>
      obtain ⟨front, back, htext, hboundary, -⟩ := (Text.standsAlone_iff _ _ _).mp h
      have hcontent := Token.content_append_drop hfirst
      rw [htext, List.append_eq_append_iff] at hcontent
      have hbehind : ∀ front', front = t.content.toList ++ front' →
          cs.drop (t.width - 1) = front' ++ 'x' :: back →
          Token.identifier (String.singleton 'x') ∈ t :: ts := by
        intro front' hfront hdrop
        have hrest : Text.standsAlone 'x' false (cs.drop (t.width - 1)) = true := by
          refine (Text.standsAlone_iff _ _ _).mpr
            ⟨front', back, hdrop, ⟨?_, hboundary.2⟩, fun _ => rfl⟩
          intro d hd
          refine hboundary.1 d ?_
          rw [hfront, List.getLast?_append, hd, Option.some_or]
        exact List.mem_cons_of_mem _ (ih hrest)
      rcases hcontent with ⟨front', hfront, hdrop⟩ | ⟨back', hback, hdrop⟩
      · exact hbehind front' hfront hdrop
      · cases back' with
        | nil => exact hbehind [] (by simpa using hback.symm) (by simpa using hdrop.symm)
        | cons d more =>
            obtain ⟨rfl, rfl⟩ := List.cons.inj hdrop
            rw [eq_identifier_of_isBoundary hfirst hback hboundary]
            exact List.mem_cons_self

/-! ## Texts that are parsed -/

/-- In a text that is parsed, `x` is a whole word where it is a name of the tree. -/
theorem hasWord_iff_of_parse {text : String} {t : Expr} (h : Expr.parse text = .ok t) :
    Text.hasWord 'x' text.toList = true ↔ t.HasName freeVariable := by
  obtain ⟨hstopped, hparse⟩ := ofTokens_of_parse h
  have hcut := Token.cut_of_scan hstopped
  have hmem : Token.identifier (String.singleton 'x') ∈ (Token.scan text.toList).tokens ↔
      t.HasName freeVariable := (derives_of_ofTokens hparse).1.identifier_mem_iff
  rw [← hmem]
  constructor
  · exact identifier_mem_of_standsAlone hcut
  · exact standsAlone_of_mem hcut (atomsApart_of_ofTokens hparse) (by simp)

end Grammar
end Calculator
