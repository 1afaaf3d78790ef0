import Calculator.Proofs.Decimal.Printed
import Calculator.Proofs.Session.Variable

/-!
# Results typed back

The text of a finite number is a line of its own that is replied to with that number.
It is one word, a number token with or without a minus sign in front, so no other request
can have its form, and no stored name occurs in it.
-/

namespace Calculator

open Binary64

namespace Decimal

/-! ## Literals as expressions -/

namespace Literal

variable (l : Literal)

theorem isLexemeChar_of_mem {c : Char} (h : c ∈ l.chars) : Token.isLexemeChar c = true := by
  rcases l.mem_chars h with h | rfl | rfl | rfl
  · exact Token.isLexemeChar_of_isDigit h
  · decide
  · decide
  · decide

/-- A literal is scanned as one token. -/
theorem scan_chars :
    Token.scan l.chars = ⟨[.number (String.ofList l.chars)], none⟩ := by
  obtain ⟨c, cs, hcs, hc⟩ := l.exists_cons_chars
  have hblank : Text.isBlank c = false :=
    Token.isBlank_of_isLexemeChar (Token.isLexemeChar_of_isDigit hc)
  have hstarts : Token.startsNumber c cs = true := by simp [Token.startsNumber, hc]
  have hfirst : Token.first? c cs = some (.number (String.ofList l.chars)) := by
    unfold Token.first?
    rw [if_pos hstarts, ← hcs, l.numberPart_chars]
  have hdrop : cs.drop ((Token.number (String.ofList l.chars)).width - 1) = [] := by
    rw [Token.width, Token.content, String.length_ofList, hcs]
    simp
  have hscan := Token.scan_of_first? hblank hfirst hdrop Token.scan_nil
  rwa [← hcs] at hscan

theorem scan_minus_chars :
    Token.scan ('-' :: l.chars) =
      ⟨[.operator .minus, .number (String.ofList l.chars)], none⟩ :=
  Token.scan_of_first? (by decide) rfl rfl l.scan_chars

/-- Where an operand has to come next, a literal is one. -/
theorem step_chars {p : Parsing} (h : p.expectsOperand = true) :
    p.step (.number (String.ofList l.chars)) =
      .ok ⟨{ p.yard with operands := ⟨.number l.decimal.toFloat, 1⟩ :: p.yard.operands }, false,
        some (.number (String.ofList l.chars))⟩ := by
  have hread : Numeral.read? (String.ofList l.chars).toList = some l.decimal.toFloat := by
    rw [String.toList_ofList, l.read?_chars]
  rw [Parsing.step, if_pos h, Parsing.stepOperand]
  dsimp only
  rw [hread]

theorem parse_chars :
    Expr.parse (String.ofList l.chars) = .ok (.number l.decimal.toFloat) := by
  rw [Expr.parse, String.toList_ofList, l.scan_chars, Expr.ofScanned, List.foldlM_cons,
    l.step_chars rfl]
  rfl

theorem parse_minus_chars :
    Expr.parse (String.ofList ('-' :: l.chars)) =
      .ok (.unary .negative (.number l.decimal.toFloat)) := by
  have hminus : Parsing.start.step (.operator .minus) =
      .ok ⟨⟨[], [.operator (.unary .negative)]⟩, true, some (.operator .minus)⟩ := rfl
  rw [Expr.parse, String.toList_ofList, l.scan_minus_chars, Expr.ofScanned, List.foldlM_cons,
    hminus, Support.ok_bind, List.foldlM_cons, l.step_chars rfl]
  rfl

end Literal

end Decimal

namespace Session

open Decimal

variable [Elementary] {v : Float} {text : String}

omit [Elementary] in
theorem isLexemeChar_of_isTextOf (h : IsTextOf v text) {c : Char} (hc : c ∈ text.toList) :
    Token.isLexemeChar c = true ∧ c ≠ 'a' := by
  obtain ⟨l, rfl, -⟩ := h
  rw [String.toList_ofList, List.mem_append, signText] at hc
  rcases hc with hc | hc
  · split at hc
    · obtain rfl := List.mem_singleton.mp hc
      decide
    · cases hc
  · exact ⟨l.isLexemeChar_of_mem hc, l.ne_of_mem_chars hc (by decide)⟩

omit [Elementary] in
/-- The text of a number is a word. -/
theorem isWord_of_isTextOf (h : IsTextOf v text) : Text.IsWord text.toList := by
  constructor
  · obtain ⟨l, rfl, -⟩ := h
    obtain ⟨c, cs, hcs, -⟩ := l.exists_cons_chars
    simp [hcs]
  · exact fun c hc => Token.isBlank_of_isLexemeChar (isLexemeChar_of_isTextOf h hc).1

omit [Elementary] in
theorem ne_keyword_of_isTextOf (h : IsTextOf v text) (d : Directive) : text ≠ d.keyword := by
  rintro rfl
  have hmem : 'a' ∈ d.keyword.toList := by
    cases d <;> decide
  exact (isLexemeChar_of_isTextOf h hmem).2 rfl

/-- The text of a number is an expression with that value. -/
theorem exists_parse_of_isTextOf (s : Symbols) (h : IsTextOf v text) :
    ∃ e, Expr.parse text = .ok e ∧ s.evaluate e = .ok (.number v) := by
  obtain ⟨l, rfl, hv⟩ := h
  rw [signText]
  cases hsign : isNegative v with
  | true =>
      rw [hsign] at hv
      refine ⟨_, l.parse_minus_chars, ?_⟩
      rw [← hv]
      rfl
  | false =>
      rw [hsign] at hv
      refine ⟨_, l.parse_chars, ?_⟩
      rw [← hv]
      rfl

/-- The text of a number is replied to with the number. -/
theorem process_of_isTextOf (rates : RateSource) (s : Symbols) (h : IsTextOf v text) :
    process rates s text = ⟨.ok (.value (.number v)), s.setLastAnswer v, []⟩ := by
  obtain ⟨e, hparse, hvalue⟩ := exists_parse_of_isTextOf s h
  have hequals : '=' ∉ text.toList :=
    fun hmem => absurd (isLexemeChar_of_isTextOf h hmem).1 (by decide)
  exact process_of_word (Request.lineWords_of_isWord (isWord_of_isTextOf h)) hequals
    (ne_keyword_of_isTextOf h) hparse hvalue

/-- The text of a finite number is replied to with that number, bit for bit, and with that
text; only a negative zero comes back as zero. -/
theorem process_formatNumber (rates : RateSource) (s : Symbols) (h : v.isFinite = true) :
    ∃ w, w = (if v = -0.0 then 0.0 else v) ∧
      process rates s (formatNumber v) =
        ⟨.ok (.value (.number w)), { s with lastAnswer := w }, []⟩ ∧
      (Reply.value (.number w)).text = formatNumber v := by
  refine ⟨_, rfl, process_of_isTextOf rates s (isTextOf_formatNumber h), ?_⟩
  by_cases hzero : v = -0.0
  · rw [if_pos hzero, hzero]
    exact (formatNumber_zero .positive).trans (formatNumber_zero .negative).symm
  · rw [if_neg hzero]
    rfl

omit [Elementary] in
theorem process_negative_tenth :
    let _ := Elementary.machine
    (-0.1 : Float).isFinite = true ∧
      process (fun _ _ => none) {} "-0.1" =
        ⟨.ok (.value (.number (-0.1))), ⟨[], -0.1⟩, []⟩ := by
  intro _
  have hfinite : (-0.1 : Float).isFinite = true := by decide +kernel
  have htext : formatNumber (-0.1) = "-0.1" := by decide +kernel
  obtain ⟨w, hw, hprocess, -⟩ := process_formatNumber (fun _ _ => none) {} hfinite
  rw [if_neg (by decide +kernel)] at hw
  rw [htext, hw] at hprocess
  exact ⟨hfinite, hprocess⟩

end Session
end Calculator
