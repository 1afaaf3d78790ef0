import Calculator.Proofs.Request.Chain
import Calculator.Proofs.Request.Order
import Calculator.Proofs.Session.Atomicity

/-!
# What a successful line changes

The reply tells what has happened to the symbols.  A chain of assignments is
followed down to its last right side, which has no equals sign and so changes
the last answer at most; on the way back each target is bound to the one number
of that reply.  All other lines change one thing or nothing.
-/

namespace Calculator

/-! ## Binding several names -/

namespace Symbols

/-- Stores one value under several names. -/
def bindAll (s : Symbols) (names : List String) (v : Float) : Symbols :=
  names.foldr (fun name s => s.setVariable name v) s

theorem bindAll_cons (s : Symbols) (name : String) (names : List String) (v : Float) :
    s.bindAll (name :: names) v = (s.bindAll names v).setVariable name v := rfl

theorem find?_bindAll (s : Symbols) (names : List String) (v : Float) (other : String) :
    (s.bindAll names v).find? other =
      if other ∈ names then some (.variable v) else s.find? other := by
  induction names with
  | nil => simp [bindAll]
  | cons name names ih =>
      rw [bindAll_cons, setVariable, find?_store, ih]
      by_cases hname : other = name
      · simp [hname]
      · simp [hname]

@[simp]
theorem lastAnswer_bindAll (s : Symbols) (names : List String) (v : Float) :
    (s.bindAll names v).lastAnswer = s.lastAnswer := by
  induction names with
  | nil => rfl
  | cons name names ih => rw [bindAll_cons, setVariable, lastAnswer_store, ih]

end Symbols

namespace Session

/-! ## The last right side -/

theorem hasParameter_of_definesFunction {t : Target} {rhs : String}
    (h : definesFunction t rhs = false) : t.hasParameter = false := by
  rw [definesFunction, Bool.or_eq_false_iff] at h
  exact h.1

/-- An assignment succeeds as a binding only behind a line that has succeeded. -/
theorem inner_of_assignReply {name name' : String} {inner : Outcome} {v : Float}
    (h : (assignReply name inner).result = .ok (.assigned name' v)) :
    name' = name ∧ (∃ reply, inner.result = .ok reply ∧ reply.number? = some v) ∧
      (assignReply name inner).symbols = inner.symbols.setVariable name v := by
  unfold assignReply at h ⊢
  split at h
  · cases h
  · rename_i reply hreply
    split at h
    · cases h
    · rename_i w hnumber
      cases h
      exact ⟨rfl, ⟨reply, hreply, hnumber⟩, rfl⟩

variable [Elementary] {rates : RateSource} {s : Symbols}

theorem arithmetic_ok {expression : String} {reply : Reply}
    (h : (arithmetic s expression).result = .ok reply) :
    ∃ v, reply = .value v ∧ (arithmetic s expression).symbols = s.setLastAnswer v.toFloat := by
  unfold arithmetic at h ⊢
  split at h
  · cases h
  · rename_i v hvalue
    cases h
    exact ⟨v, rfl, rfl⟩

/-- A binding comes from an assignment, whose right side is a line of its own. -/
theorem inner_of_assigned {line name : String} {v : Float}
    (h : (process rates s line).result = .ok (.assigned name v)) :
    ∃ rhs reply, Request.assignment? (trimLine line) = some (name, rhs) ∧
      (process rates s rhs).result = .ok reply ∧ reply.number? = some v ∧
      (process rates s line).symbols = (process rates s rhs).symbols.setVariable name v := by
  cases hsides : Request.assignment? (trimLine line) with
  | none =>
      -- Only an assignment binds a name, whatever else the line may be.
      exfalso
      have heffect := effect_process rates s line
      rw [h] at heffect
      generalize (process rates s line).symbols = after at heffect
      cases heffect with
      | answered _ hquery => cases hquery
      | assigned hsides' =>
          rw [hsides] at hsides'
          cases hsides'
  | some sides =>
      obtain ⟨target, rhs⟩ := sides
      rw [process_of_assignment? hsides] at h ⊢
      cases htarget : targetName target with
      | error e =>
          rw [htarget] at h
          cases h
      | ok t =>
          rw [htarget] at h
          dsimp only at h ⊢
          cases hfunction : definesFunction t rhs with
          | true =>
              rw [hfunction, if_pos rfl, defineFunction] at h
              split at h <;> cases h
          | false =>
              rw [hfunction, if_neg Bool.false_ne_true] at h
              obtain ⟨rfl, ⟨reply, hreply, hnumber⟩, hsymbols⟩ := inner_of_assignReply h
              have hname := Target.name_of_not_hasParameter hsides (targetName_eq_ok htarget).1
                (hasParameter_of_definesFunction hfunction)
              rw [if_neg Bool.false_ne_true]
              exact ⟨rhs, reply, by rw [hname], hreply, hnumber, hsymbols⟩

/-- A reply with a number to a line with an equals sign is that of a binding. -/
theorem eq_assigned_of_number? {line : String} {reply : Reply} {v : Float}
    (hequals : '=' ∈ line.toList) (hpair : ¬ ['=', '='] <:+: line.toList)
    (hline : trimLine line = line) (h : (process rates s line).result = .ok reply)
    (hnumber : reply.number? = some v) : ∃ name, reply = .assigned name v := by
  obtain ⟨target, rhs, hsides⟩ := Request.exists_assignment? hequals hpair
  rw [← hline] at hsides
  rw [process_of_assignment? hsides] at h
  split at h
  · cases h
  · split at h
    · unfold defineFunction at h
      split at h
      · cases h
      · cases h
        cases hnumber
    · unfold assignReply at h
      split at h
      · cases h
      · split at h
        · cases h
        · cases h
          obtain rfl := Option.some.inj hnumber
          exact ⟨_, rfl⟩

/-- A binding follows the chain of the line down to a right side without equals
sign, which is processed first, and then binds the names of the chain. -/
theorem exists_chain_of_assigned {line name : String} {v : Float}
    (h : (process rates s line).result = .ok (.assigned name v)) :
    ∃ names r reply, Request.pieces (trimLine line) = name :: names ++ [r] ∧
      '=' ∉ r.toList ∧ trimLine r = r ∧
      (process rates s r).result = .ok reply ∧ reply.number? = some v ∧
      (process rates s line).symbols = (process rates s r).symbols.bindAll (name :: names) v := by
  induction hlength : line.length using Nat.strongRecOn generalizing line name with
  | _ n ih =>
    obtain ⟨rhs, reply, hsides, hreply, hnumber, hsymbols⟩ := inner_of_assigned h
    have hrhs := Request.trimLine_rhs_of_assignment? hsides
    have hpieces := Request.pieces_of_assignment? hsides
    by_cases hequals : '=' ∈ rhs.toList
    · obtain ⟨name', rfl⟩ := eq_assigned_of_number? hequals
        (Request.not_pair_rhs_of_assignment? hsides) hrhs hreply hnumber
      have hshort : rhs.length < n := by
        have hlt := Request.length_rhs_lt_of_classify
          (Request.classify_of_assignment? s hsides)
        have hle := Request.length_trimLine_le line
        omega
      obtain ⟨names, r, reply', hpieces', hlast, htrim, hreply', hnumber', hsymbols'⟩ :=
        ih rhs.length hshort hreply rfl
      rw [hrhs] at hpieces'
      refine ⟨name' :: names, r, reply', ?_, hlast, htrim, hreply', hnumber', ?_⟩
      · rw [hpieces, hpieces', List.cons_append, List.cons_append, List.cons_append]
      · rw [hsymbols, hsymbols', ← Symbols.bindAll_cons]
    · refine ⟨[], rhs, reply, ?_, hequals, hrhs, hreply, hnumber, hsymbols⟩
      rw [hpieces, Request.pieces_of_not_mem hequals, hrhs, List.singleton_append]

/-- A line without equals sign stores nothing; it sets the last answer if it is
arithmetic. -/
theorem symbols_of_not_mem {r : String} {reply : Reply} (hequals : '=' ∉ r.toList)
    (htrim : trimLine r = r) (h : (process rates s r).result = .ok reply) :
    (∀ name, (process rates s r).symbols.find? name = s.find? name) ∧
      ((∃ e, Request.classify r s = .arithmetic e) →
        some (process rates s r).symbols.lastAnswer = reply.number?) ∧
      ((¬ ∃ e, Request.classify r s = .arithmetic e) →
        (process rates s r).symbols.lastAnswer = s.lastAnswer) := by
  have hsides : Request.assignment? (trimLine r) = none := by
    rw [htrim]
    exact Request.assignment?_eq_none_of_not_mem hequals
  by_cases harithmetic : ∃ e, Request.classify r s = .arithmetic e
  · obtain ⟨e, hclass⟩ := harithmetic
    rw [process_eq, htrim, hclass] at h ⊢
    obtain ⟨v, rfl, hsymbols⟩ := arithmetic_ok h
    rw [hsymbols]
    exact ⟨fun _ => rfl, fun _ => rfl, fun hnot => absurd ⟨e, rfl⟩ hnot⟩
  · have hsymbols : (process rates s r).symbols = s := by
      have heffect := effect_process rates s r
      rw [h] at heffect
      generalize (process rates s r).symbols = after at heffect
      cases heffect with
      | answered => rfl
      | value hclass =>
          rw [htrim] at hclass
          exact absurd ⟨_, hclass⟩ harithmetic
      | defined hsides' =>
          rw [hsides] at hsides'
          cases hsides'
      | assigned hsides' =>
          rw [hsides] at hsides'
          cases hsides'
    rw [hsymbols]
    exact ⟨fun _ => rfl, fun h => absurd h harithmetic, fun _ => rfl⟩

/-! ## Lines with two equals signs together -/

/-- Where two equals signs stand together nothing is stored, and an expression
with them is none. -/
theorem Effect.after_eq_of_pair {line : String} {result : Except LineError Reply}
    {after : Symbols} (h : Effect rates s line result after)
    (hpair : ['=', '='] <:+: (trimLine line).toList) : after = s := by
  have hsides : ∀ sides, Request.assignment? (trimLine line) ≠ some sides := by
    rintro ⟨target, rhs⟩ hsides
    exact (Request.assignment?_eq_some_iff.mp hsides).1 hpair
  cases h with
  | refused => rfl
  | answered => rfl
  | value hclass hvalue =>
      have hequals : '=' ∈ (trimLine line).toList := hpair.subset (by simp)
      obtain ⟨e, hparse⟩ := Grammar.parse_error_of_equals hequals
      rw [Request.expression_of_classify hclass, hparse] at hvalue
      cases hvalue
  | defined h => exact absurd h (hsides _)
  | assigned h => exact absurd h (hsides _)
  | notNumber h => exact absurd h (hsides _)
  | failed h => exact absurd h (hsides _)

/-! ## The line -/

/-- The line reads `n₁ = … = nₖ = r` and has been carried out: `r` was processed with
the symbols from before, and the names alone have become variables with its number. -/
structure IsCarriedOut (rates : RateSource) (s after : Symbols) (line : String)
    (names : List String) (r : String) (v : Float) : Prop where
  form : Request.pieces (trimLine line) = names ++ [r]
  last : '=' ∉ r.toList
  number : ∃ reply, (process rates s r).result = .ok reply ∧ reply.number? = some v
  bound : ∀ name ∈ names, after.find? name = some (.variable v)
  kept : ∀ name, name ∉ names → after.find? name = s.find? name
  noDefinition : ∀ name d, after.find? name = some (.function d) →
    s.find? name = some (.function d)
  answer : (∃ e, Request.classify r s = .arithmetic e) → after.lastAnswer = v
  answerKept : (¬ ∃ e, Request.classify r s = .arithmetic e) →
    after.lastAnswer = s.lastAnswer

/-- The name of the target has become a function with the whole text behind the
first equals sign, and nothing else has changed. -/
structure IsDefinition (s after : Symbols) (line name source : String) : Prop where
  sides : ∃ left right t, (trimLine line).toList = left ++ '=' :: right ∧ '=' ∉ left ∧
    Target.read? (String.ofList (Text.trim left)) = some t ∧ t.name = name ∧
    source = String.ofList (Text.trim right)
  stored : after.find? name = some (.function (.ofSource source))
  kept : ∀ other, other ≠ name → after.find? other = s.find? other
  answerKept : after.lastAnswer = s.lastAnswer

theorem isCarriedOut_of_assigned {line name : String} {v : Float}
    (h : (process rates s line).result = .ok (.assigned name v)) :
    ∃ names r, IsCarriedOut rates s (process rates s line).symbols line (name :: names) r v := by
  obtain ⟨names, r, reply, hpieces, hlast, htrim, hreply, hnumber, hsymbols⟩ :=
    exists_chain_of_assigned h
  obtain ⟨hfind, hanswer, hkept⟩ := symbols_of_not_mem hlast htrim hreply
  have hlookup : ∀ other, (process rates s line).symbols.find? other =
      if other ∈ name :: names then some (.variable v) else s.find? other := by
    intro other
    rw [hsymbols, Symbols.find?_bindAll, hfind]
  have hlastAnswer : (process rates s line).symbols.lastAnswer =
      (process rates s r).symbols.lastAnswer := by
    rw [hsymbols, Symbols.lastAnswer_bindAll]
  refine ⟨names, r, hpieces, hlast, ⟨reply, hreply, hnumber⟩, ?_, ?_, ?_, ?_, ?_⟩
  · intro other hmem
    rw [hlookup, if_pos hmem]
  · intro other hmem
    rw [hlookup, if_neg hmem]
  · intro other d hfunction
    rw [hlookup] at hfunction
    split at hfunction
    · cases hfunction
    · exact hfunction
  · intro harithmetic
    have hvalue := hanswer harithmetic
    rw [hnumber] at hvalue
    rw [hlastAnswer, Option.some.inj hvalue]
  · intro harithmetic
    rw [hlastAnswer, hkept harithmetic]

theorem Effect.isDefinition {line name : String} {after : Symbols}
    (h : Effect rates s line (.ok (.defined name)) after) :
    ∃ source, IsDefinition s after line name source := by
  cases h with
  | answered _ hquery => cases hquery
  | defined hsides htarget =>
      obtain ⟨-, left, right, hline, hleft, rfl, rfl⟩ :=
        Request.assignment?_eq_some_iff.mp hsides
      refine ⟨_, ⟨left, right, _, hline, hleft, (targetName_eq_ok htarget).1, rfl, rfl⟩,
        ?_, ?_, rfl⟩
      · rw [Symbols.define, Symbols.find?_store, if_pos rfl]
      · intro other hother
        rw [Symbols.define, Symbols.find?_store, if_neg hother]

theorem Effect.after_eq_of_value {line : String} {v : Value} {after : Symbols}
    (h : Effect rates s line (.ok (.value v)) after) : after = s.setLastAnswer v.toFloat := by
  cases h with
  | answered _ hquery => cases hquery
  | value => rfl

theorem Effect.after_eq_of_isQuery {line : String} {reply : Reply} {after : Symbols}
    (h : Effect rates s line (.ok reply) after) (hquery : isQuery reply = true) :
    after = s := by
  cases h with
  | answered => rfl
  | value => cases hquery
  | defined => cases hquery
  | assigned => cases hquery

/-- What a successful line changes is what its reply says: an assignment binds the
names of its chain, a definition stores one function, a value is the new last
answer, and every other reply leaves the symbols alone.  A line with two equals
signs together changes nothing. -/
theorem symbols_of_process_ok (rates : RateSource) (s : Symbols) (line : String) :
    (∀ name v, (process rates s line).result = .ok (.assigned name v) →
      ∃ names r,
        IsCarriedOut rates s (process rates s line).symbols line (name :: names) r v) ∧
    (∀ name, (process rates s line).result = .ok (.defined name) →
      ∃ source, IsDefinition s (process rates s line).symbols line name source) ∧
    (∀ v, (process rates s line).result = .ok (.value v) →
      (process rates s line).symbols = { s with lastAnswer := v.toFloat }) ∧
    (∀ reply, (process rates s line).result = .ok reply → isQuery reply = true →
      (process rates s line).symbols = s) ∧
    (['=', '='] <:+: line.toList → (process rates s line).symbols = s) := by
  have heffect := effect_process rates s line
  refine ⟨?_, ?_, ?_, ?_, ?_⟩
  · intro name v h
    exact isCarriedOut_of_assigned h
  · intro name h
    rw [h] at heffect
    exact heffect.isDefinition
  · intro v h
    rw [h] at heffect
    exact heffect.after_eq_of_value
  · intro reply h hquery
    rw [h] at heffect
    exact heffect.after_eq_of_isQuery hquery
  · intro hpair
    refine heffect.after_eq_of_pair ?_
    rw [trimLine, String.toList_ofList]
    refine Text.infix_trim (by simp) ?_ hpair
    intro c hc
    obtain rfl : c = '=' := by simpa using hc
    decide

omit [Elementary] in
theorem scan_three : Token.scan "3".toList = ⟨[.number "3"], none⟩ :=
  Token.scan_of_first? (by decide) (by decide) rfl Token.scan_nil

omit [Elementary] in
theorem parse_three : Expr.parse "3" = .ok (.number 3) := by
  have hread : Numeral.read? "3".toList = some 3 := by decide +kernel
  rw [Expr.parse, scan_three, Expr.ofScanned, List.foldlM_cons, Parsing.step]
  change (Parsing.stepOperand .start (.number "3") >>= _) = _
  rw [Parsing.stepOperand, hread]
  rfl

/-- A digit is answered with its value. -/
theorem process_three (rates : RateSource) (s : Symbols) :
    process rates s "3" = ⟨.ok (.value (.number 3)), s.setLastAnswer 3, []⟩ := by
  have hclass : Request.classify (trimLine "3") s = .arithmetic "3" := rfl
  rw [process_eq, hclass]
  dsimp only
  rw [arithmetic, parse_three]
  rfl

/-- A digit can be stored under any name that is free. -/
theorem process_bind_three (rates : RateSource) (s : Symbols) {line name : String}
    (hsides : Request.assignment? (trimLine line) = some (name, "3"))
    (htarget : targetName name = .ok ⟨name, false⟩) :
    process rates s line =
      ⟨.ok (.assigned name 3), (s.setLastAnswer 3).setVariable name 3, []⟩ := by
  have hfunction : definesFunction ⟨name, false⟩ "3" = false := by
    rw [definesFunction, parse_three]
    rfl
  rw [process_of_assignment? hsides, htarget]
  dsimp only
  rw [hfunction, if_neg Bool.false_ne_true, process_three]
  rfl

omit [Elementary] in
/-- Both names of the chain have become variables with the value, which is the last answer. -/
theorem symbols_of_process_binding :
    (@process .machine (fun _ _ => none) {} "a = b = 3").result = .ok (.assigned "a" 3) ∧
      ∃ names r, @IsCarriedOut .machine (fun _ _ => none) {}
        (@process .machine (fun _ _ => none) {} "a = b = 3").symbols "a = b = 3"
        ("a" :: names) r 3 := by
  let elementary := Elementary.machine
  have houter : Request.assignment? (trimLine "a = b = 3") = some ("a", "b = 3") := by
    decide
  have hinner : Request.assignment? (trimLine "b = 3") = some ("b", "3") := by
    decide
  have hfunction : definesFunction ⟨"a", false⟩ "b = 3" = false := by
    rw [definesFunction_of_equals _ (by decide)]
    decide
  have htarget : targetName "a" = .ok ⟨"a", false⟩ := rfl
  have htarget' : targetName "b" = .ok ⟨"b", false⟩ := rfl
  have hresult : (process (fun _ _ => none) {} "a = b = 3").result =
      .ok (.assigned "a" 3) := by
    rw [process_of_assignment? houter, htarget]
    dsimp only
    rw [hfunction, if_neg Bool.false_ne_true, process_bind_three _ _ hinner htarget']
    rfl
  exact ⟨hresult, (symbols_of_process_ok _ _ _).1 "a" 3 hresult⟩

end Session
end Calculator
