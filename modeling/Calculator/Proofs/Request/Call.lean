import Calculator.Proofs.Decimal.Literal
import Calculator.Proofs.Request.Expression
import Calculator.Proofs.Request.Named
import Calculator.Proofs.Token.NormalForm

/-!
# Calls with one number

A function is applied to a number in two ways: by the directive `evaluate f for x == v`,
which is read by its words, and by the call `f(v)`, which is read by its tokens.  A number
that is one token is one word as well, and a literal without a radix prefix is read in the
same way as an operand and in an expression.
-/

namespace Calculator

namespace Token

variable {cs : List Char} {t : Token}

/-- In parentheses behind a name, a number is the argument of a call. -/
theorem scan_call {name : String} (hname : IsIdentifier name) (h : scan cs = ⟨[t], none⟩)
    (hatom : t.isAtom = true) :
    scan (name.toList ++ '(' :: (cs ++ [')'])) =
      ⟨[.identifier name, .openParen, t, .closeParen], none⟩ := by
  have hclose : scan [')'] = ⟨[.closeParen], none⟩ :=
    scan_of_first? (by decide) (by decide) rfl scan_nil
  have hinner : scan (cs ++ [')']) = ⟨[t, .closeParen], none⟩ := by
    obtain ⟨front, back, rfl, hfront, hback⟩ := exists_of_scan_eq_singleton h
    have hends : EndsAtom (back ++ [')']) := by
      intro c hc
      rcases List.mem_append.mp (List.mem_of_head? hc) with hc | hc
      · exact endsAtom_of_startsBlank (Text.startsBlank_of_blanks (List.forall_mem_singleton.mpr
          (hback c hc))) c rfl
      · obtain rfl := List.mem_singleton.mp hc
        decide
    rw [List.append_assoc, List.append_assoc, scan_append_of_blanks hfront,
      (isLexeme_of_scan_eq_singleton h).scan_append_of_isAtom hatom hends,
      scan_append_of_blanks hback, hclose]
  have hopen : scan ('(' :: (cs ++ [')'])) = ⟨[.openParen, t, .closeParen], none⟩ :=
    scan_of_first? (by decide) rfl rfl hinner
  have hends : EndsAtom ('(' :: (cs ++ [')'])) := by
    rintro c ⟨⟩
    decide
  have hlexeme := isLexeme_of_scan_eq_singleton hname.scan_eq
  have hscan := hlexeme.scan_append_of_isAtom rfl hends
  rw [hopen] at hscan
  exact hscan

end Token

namespace Request

variable {name text literal : String} {v : Float}

/-- The line that calls a function with the text of its argument. -/
def callLine (name text : String) : String :=
  name ++ "(" ++ text ++ ")"

/-- The line that asks for a function at an operand; the axis says whether the operand is
the input or the output. -/
def evaluateLine (name axis operand : String) : String :=
  "evaluate " ++ name ++ " for " ++ axis ++ " == " ++ operand

/-! ## The line of the directive -/

theorem lineWords_evaluateLine (name axis operand : String) :
    lineWords (evaluateLine name axis operand) =
      "evaluate" :: (lineWords name ++ "for" :: (lineWords axis ++ "==" :: lineWords operand)) := by
  have hspace : ∀ cs, Text.StartsBlank (' ' :: cs) := by
    rintro cs c ⟨⟩
    decide
  have hword : ∀ {w : List Char}, Text.IsWord w → ∀ cs,
      Text.words (' ' :: (w ++ ' ' :: cs)) = w :: Text.words cs := by
    intro w hw cs
    rw [Text.words_cons_of_isBlank (by decide), hw.words_append (hspace cs),
      Text.words_cons_of_isBlank (by decide)]
  have hline : (evaluateLine name axis operand).toList =
      "evaluate".toList ++ ' ' :: (name.toList ++ ' ' :: ("for".toList ++ ' ' ::
        (axis.toList ++ ' ' :: ("==".toList ++ ' ' :: operand.toList)))) := by
    simp [evaluateLine]
  have hevaluate : Text.IsWord "evaluate".toList := by decide
  have hfor : Text.IsWord "for".toList := by decide
  have hequals : Text.IsWord "==".toList := by decide
  rw [lineWords, hline, hevaluate.words_append (hspace _),
    Text.words_cons_of_isBlank (by decide), Text.words_append (hspace _), hword hfor,
    Text.words_append (hspace _), hword hequals]
  simp [lineWords]

/-- With single words in their places, the line is the directive. -/
theorem lineWords_evaluateLine_of_identifier {axis operand token : String}
    (hname : Token.IsIdentifier name) (haxis : lineWords axis = [axis])
    (hoperand : lineWords operand = [token]) :
    lineWords (evaluateLine name axis operand) =
      ["evaluate", name, "for", axis, "==", token] := by
  rw [lineWords_evaluateLine, lineWords_of_identifier hname, haxis, hoperand]
  rfl

/-! ## The line of the call -/

theorem parse_callLine (hname : Token.IsIdentifier name)
    (htext : Token.scan text.toList = ⟨[.number literal], none⟩)
    (hread : Numeral.read? literal.toList = some v) :
    Expr.parse (callLine name text) = .ok (.call name [.number v]) := by
  have hline : (callLine name text).toList = name.toList ++ '(' :: (text.toList ++ [')']) := by
    simp [callLine]
  have hidentifier : Parsing.start.step (.identifier name) =
      .ok ⟨⟨[⟨.identifier name, 1⟩], []⟩, false, some (.identifier name)⟩ := rfl
  have hopen : Parsing.step ⟨⟨[⟨.identifier name, 1⟩], []⟩, false, some (.identifier name)⟩
      .openParen = .ok ⟨⟨[], [.call name 1]⟩, true, some .openParen⟩ := rfl
  have hnumber : Parsing.step ⟨⟨[], [.call name 1]⟩, true, some .openParen⟩ (.number literal) =
      .ok ⟨⟨[⟨.number v, 1⟩], [.call name 1]⟩, false, some (.number literal)⟩ := by
    rw [Parsing.step, if_pos rfl, Parsing.stepOperand]
    dsimp only
    rw [hread]
  rw [Expr.parse, hline, Token.scan_call hname htext rfl, Expr.ofScanned, List.foldlM_cons,
    hidentifier, Support.ok_bind, List.foldlM_cons, hopen, Support.ok_bind, List.foldlM_cons,
    hnumber]
  rfl

/-- The parenthesis belongs to the first word, so the line begins with no keyword and with
no name that stands alone. -/
theorem exists_lineWords_callLine (hname : Token.IsIdentifier name) (text : String) :
    ∃ w ws, lineWords (callLine name text) = w :: ws ∧ '(' ∈ w.toList := by
  have hline : (callLine name text).toList = (name.toList ++ ['(']) ++ (text.toList ++ [')']) := by
    simp [callLine]
  have hword : Text.IsWord (name.toList ++ ['(']) := by
    refine ⟨by simp, ?_⟩
    intro c hc
    rcases List.mem_append.mp hc with hc | hc
    · exact hname.isWord.blankless c hc
    · obtain rfl := List.mem_singleton.mp hc
      decide
  obtain ⟨w, ws, hwords⟩ := Text.exists_words_append hword (text.toList ++ [')'])
  refine ⟨String.ofList (name.toList ++ ['('] ++ w), ws.map String.ofList, ?_, by simp⟩
  rw [lineWords, hline, hwords, List.map_cons]

theorem trimLine_callLine (hname : Token.IsIdentifier name) (text : String) :
    trimLine (callLine name text) = callLine name text := by
  obtain ⟨c, cs, hcs, hstart⟩ := hname.exists_cons
  have hhead : Text.StartsBlankless (callLine name text).toList := by
    intro d hd
    obtain rfl : c = d := by simpa [callLine, hcs] using hd
    exact Target.isBlank_of_isNameStart hstart
  have hlast : ∀ d, (callLine name text).toList.getLast? = some d → Text.isBlank d = false := by
    intro d hd
    have hline : (callLine name text).toList = (name.toList ++ '(' :: text.toList) ++ [')'] := by
      simp [callLine]
    rw [hline, List.getLast?_concat] at hd
    obtain rfl := Option.some.inj hd
    decide
  rw [trimLine, Text.trim_eq_self hhead hlast, String.ofList_toList]

/-- A call with a number is an expression and nothing else. -/
theorem classify_callLine (s : Symbols) (hname : Token.IsIdentifier name)
    (htext : Token.scan text.toList = ⟨[.number literal], none⟩)
    (hread : Numeral.read? literal.toList = some v) :
    classify (callLine name text) s = .arithmetic (callLine name text) := by
  have hparse := parse_callLine hname htext hread
  obtain ⟨w, ws, hwords, hparen⟩ := exists_lineWords_callLine hname text
  have hequals : '=' ∉ (callLine name text).toList := by
    intro hmem
    obtain ⟨e, he⟩ := Grammar.parse_error_of_equals hmem
    rw [hparse] at he
    cases he
  have hkeyword : ¬ StartsWithKeyword (callLine name text) := by
    refine not_startsWithKeyword_of_lineWords hwords ?_
    rintro d rfl
    cases d <;> exact absurd hparen (by decide)
  have hunit : Conversion.unit? (callLine name text) = none := by
    by_contra hsome
    obtain ⟨c, hc⟩ := Option.ne_none_iff_exists'.mp hsome
    obtain ⟨d, cs, hcs, hstart⟩ := hname.exists_cons
    have hhead : (callLine name text).toList.head? = some d := by simp [callLine, hcs]
    rw [Conversion.unit?, Conversion.read?_of_isNameStart hhead hstart] at hc
    obtain ⟨first, gap, codes, -, -, hline, hfirst, hgap, -⟩ :=
      (Conversion.readWithName?_eq_some_iff Conversion.isProper_units).mp hc
    have hfront := hfirst.isWord.words_append (hgap.startsBlank codes)
    rw [← hline, words_of_lineWords hwords, List.map_cons] at hfront
    rw [(List.cons.inj hfront).1] at hparen
    exact absurd (hfirst.2 '(' hparen) (by decide)
  exact classify_eq_arithmetic_iff.mpr
    ⟨rfl, assignment?_eq_none_of_not_mem hequals, hkeyword,
      conversion?_eq_none (Conversion.currency?_eq_none_of_parse hparse),
      conversion?_eq_none hunit⟩

end Request
end Calculator
