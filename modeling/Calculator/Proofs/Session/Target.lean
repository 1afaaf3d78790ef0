import Calculator.Proofs.Request.TargetParts
import Calculator.Proofs.Session.Effect

/-!
# Targets of assignments

An assignment is refused by its target alone: when the target has no parts, with the target as
the name, and when its name is built in or reserved, with that name.  Nothing else is refused
for its name.  Where the value comes from an assignment on the right side, the target there may
be refused in turn, and the error is passed on.
-/

namespace Calculator
namespace Session

open Target (HasParts)

variable [Elementary]

/-- The names that are not free to be stored. -/
def IsTaken (name : String) : Prop :=
  Builtin.isName name = true ∨ name ∈ reserved

/-! ## The check of the target -/

theorem targetName_of_not_hasParts {target : String}
    (h : ¬ ∃ name gap parameter, HasParts target.toList name gap parameter) :
    targetName target = .error (.invalidName target) := by
  have hread : Target.read? target = none := by
    rw [Option.eq_none_iff_forall_ne_some]
    exact fun t ht => h ⟨_, _, _, Target.hasParts_of_read? ht⟩
  rw [targetName, hread]

section Parts

variable {target : String} {name gap parameter : List Char}
  (h : HasParts target.toList name gap parameter)

include h

theorem targetName_of_isTaken (htaken : IsTaken (String.ofList name)) :
    targetName target = .error (.invalidName (String.ofList name)) := by
  rw [targetName, h.read?_eq]
  dsimp only
  rw [if_pos]
  rwa [Bool.or_eq_true, List.contains_iff_mem]

theorem targetName_of_not_isTaken (hfree : ¬ IsTaken (String.ofList name)) :
    targetName target = .ok ⟨String.ofList name, !parameter.isEmpty⟩ := by
  rw [targetName, h.read?_eq]
  dsimp only
  rw [if_neg]
  rwa [Bool.or_eq_true, List.contains_iff_mem]

end Parts

/-! ## Lines that report an invalid name -/

variable {rates : RateSource} {s : Symbols}

omit [Elementary] in
/-- Storing a reply reports no name but one that the right side reported. -/
theorem assignReply_eq_invalidName_iff {name m : String} {inner : Outcome} :
    (assignReply name inner).result = .error (.invalidName m) ↔
      inner.result = .error (.invalidName m) := by
  constructor
  · intro h
    unfold assignReply at h
    split at h
    · rename_i e hresult
      cases h
      exact hresult
    · split at h <;> cases h
  · intro h
    rw [assignReply, h]

omit [Elementary] in
theorem defineFunction_ne {name rhs m : String} :
    (defineFunction s name rhs).result ≠ .error (.invalidName m) := by
  intro h
  unfold defineFunction at h
  split at h <;> cases h

theorem evaluateFunction_ne {words : List String} {m : String} :
    evaluateFunction s words ≠ .error (.invalidName m) := by
  intro h
  unfold evaluateFunction at h
  dsimp only at h
  repeat' split at h
  all_goals cases h

theorem graph_ne {words : List String} {m : String} :
    (graph s words).result ≠ .error (.invalidName m) := by
  intro h
  unfold graph at h
  repeat' split at h
  all_goals cases h

/-- Only assignments report an invalid name. -/
theorem isSome_assignment?_of_invalidName {line m : String}
    (h : (process rates s line).result = .error (.invalidName m)) :
    (Request.assignment? (trimLine line)).isSome = true := by
  rw [process_eq] at h
  split at h
  · next hclass => exact Option.isSome_of_eq_some (Request.assignment?_of_classify hclass)
  · exact (evaluateFunction_ne h).elim
  · exact (graph_ne h).elim
  · unfold convertCurrency at h
    dsimp only [unchanged] at h
    split at h <;> cases h
  · unfold convertUnit at h
    dsimp only [unchanged] at h
    split at h <;> cases h
  · unfold arithmetic at h
    split at h <;> cases h

/-! ## Assignments -/

/-- Behind a target that is accepted, only a target on the right side is refused, where the
value comes from an assignment. -/
theorem process_eq_invalidName_iff {line target rhs m : String} {name gap parameter : List Char}
    (hsides : Request.assignment? (trimLine line) = some (target, rhs))
    (hparts : HasParts target.toList name gap parameter)
    (hfree : ¬ IsTaken (String.ofList name)) :
    (process rates s line).result = .error (.invalidName m) ↔
      definesFunction ⟨String.ofList name, !parameter.isEmpty⟩ rhs = false ∧
        (Request.assignment? (trimLine rhs)).isSome = true ∧
          (process rates s rhs).result = .error (.invalidName m) := by
  rw [process_of_assignment? hsides, targetName_of_not_isTaken hparts hfree]
  dsimp only
  cases definesFunction ⟨String.ofList name, !parameter.isEmpty⟩ rhs with
  | true => exact ⟨fun hm => (defineFunction_ne hm).elim, fun h => by cases h.1⟩
  | false =>
      rw [if_neg Bool.false_ne_true, assignReply_eq_invalidName_iff, and_iff_right rfl]
      exact ⟨fun hm => ⟨isSome_assignment?_of_invalidName hm, hm⟩, And.right⟩

/-- A target is read as its parts, which it has in one way at most, and an assignment is refused
for its name exactly when its target has no parts, its name is taken, or the value comes from an
assignment on the right side that is refused for its name. -/
theorem targets_read_uniquely :
    (∀ (text : String) (t : Target), Target.read? text = some t ↔
      ∃ gap parameter, HasParts text.toList t.name.toList gap parameter ∧
        (t.hasParameter = true ↔ parameter ≠ [])) ∧
    (∀ text name gap parameter name' gap' parameter',
      HasParts text name gap parameter → HasParts text name' gap' parameter' →
        name = name' ∧ gap = gap' ∧ parameter = parameter') ∧
    ∀ (rates : RateSource) (s : Symbols) (line target rhs : String),
      Request.assignment? (trimLine line) = some (target, rhs) →
      ((¬ ∃ name gap parameter, HasParts target.toList name gap parameter) →
        process rates s line = unchanged s (.error (.invalidName target))) ∧
      ∀ name gap parameter, HasParts target.toList name gap parameter →
        (IsTaken (String.ofList name) →
          process rates s line = unchanged s (.error (.invalidName (String.ofList name)))) ∧
        (¬ IsTaken (String.ofList name) →
          ∀ m, (process rates s line).result = .error (.invalidName m) ↔
            definesFunction ⟨String.ofList name, !parameter.isEmpty⟩ rhs = false ∧
              (Request.assignment? (trimLine rhs)).isSome = true ∧
                (process rates s rhs).result = .error (.invalidName m)) := by
  refine ⟨fun _ _ => Target.read?_eq_some_iff, fun _ _ _ _ _ _ _ h h' => h.unique h', ?_⟩
  intro rates s line target rhs hsides
  have hrefused : ∀ {e}, targetName target = .error e →
      process rates s line = unchanged s (.error e) := by
    intro e he
    rw [process_of_assignment? hsides, he]
  refine ⟨fun hnone => hrefused (targetName_of_not_hasParts hnone), ?_⟩
  intro name gap parameter hparts
  exact ⟨fun htaken => hrefused (targetName_of_isTaken hparts htaken),
    fun hfree _ => process_eq_invalidName_iff hsides hparts hfree⟩

omit [Elementary] in
/-- Four spellings of one name, and a built-in name with a parameter, which is refused. -/
theorem targets_of_function_and_sine :
    let _ := Elementary.machine
    (∀ text ∈ ["f", "f (x)", "f( x )", "f(x)"], ∃ t, Target.read? text = some t ∧ t.name = "f") ∧
      Request.assignment? (trimLine "sin (x) = 1") = some ("sin (x)", "1") ∧
      HasParts "sin (x)".toList "sin".toList [' '] "(x)".toList ∧ IsTaken "sin" ∧
      (∀ name gap parameter, HasParts "sin (x)".toList name gap parameter →
        name = "sin".toList ∧ gap = [' '] ∧ parameter = "(x)".toList) ∧
      process (fun _ _ => none) {} "sin (x) = 1" = unchanged {} (.error (.invalidName "sin")) := by
  intro _
  obtain ⟨hread, hunique, hline⟩ := targets_read_uniquely
  have hf : Target.IsName "f" :=
    ⟨⟨'f', by decide, by decide⟩, List.all_eq_true.mp (by decide), by decide⟩
  have hsine : Target.IsName "sin" :=
    ⟨⟨'s', by decide, by decide⟩, List.all_eq_true.mp (by decide), by decide⟩
  have hblank : ∀ c ∈ [' '], Text.isBlank c = true := List.all_eq_true.mp (by decide)
  have hnone : ∀ c ∈ ([] : List Char), Text.isBlank c = true := by simp
  have hplain : Target.IsParameter "(x)".toList := ⟨[], [], by decide, hnone, hnone⟩
  have hspaced : Target.IsParameter "( x )".toList := ⟨[' '], [' '], by decide, hblank, hblank⟩
  have hparts : HasParts "sin (x)".toList "sin".toList [' '] "(x)".toList :=
    ⟨by decide, hsine, hblank, .inr hplain⟩
  have hsides : Request.assignment? (trimLine "sin (x) = 1") = some ("sin (x)", "1") := by decide
  have htaken : IsTaken "sin" := .inl rfl
  refine ⟨?_, hsides, hparts, htaken, fun _ _ _ h => hunique _ _ _ _ _ _ _ h hparts,
    ((hline _ {} _ _ _ hsides).2 _ _ _ hparts).1 htaken⟩
  simp only [List.forall_mem_cons]
  exact ⟨⟨⟨"f", false⟩, (hread "f" _).mpr
      ⟨[], [], ⟨by decide, hf, hnone, .inl rfl⟩, by decide⟩, rfl⟩,
    ⟨⟨"f", true⟩, (hread "f (x)" _).mpr
      ⟨[' '], "(x)".toList, ⟨by decide, hf, hblank, .inr hplain⟩, by decide⟩, rfl⟩,
    ⟨⟨"f", true⟩, (hread "f( x )" _).mpr
      ⟨[], "( x )".toList, ⟨by decide, hf, hnone, .inr hspaced⟩, by decide⟩, rfl⟩,
    ⟨⟨"f", true⟩, (hread "f(x)" _).mpr
      ⟨[], "(x)".toList, ⟨by decide, hf, hnone, .inr hplain⟩, by decide⟩, rfl⟩,
    fun _ h => (List.not_mem_nil h).elim⟩

omit [Elementary] in
/-- The name `a` is free, but the value that is to be stored under it comes from an assignment
to `sin`. -/
theorem not_forall_invalidName_iff :
    let _ := Elementary.machine
    ¬ ∀ (rates : RateSource) (s : Symbols) (line target rhs : String),
      Request.assignment? (trimLine line) = some (target, rhs) →
      ((∃ m, (process rates s line).result = .error (.invalidName m)) ↔
        (¬ ∃ name gap parameter, HasParts target.toList name gap parameter) ∨
          ∃ name gap parameter, HasParts target.toList name gap parameter ∧
            IsTaken (String.ofList name)) := by
  intro _ hall
  have hnone : ∀ c ∈ ([] : List Char), Text.isBlank c = true := by simp
  have ha : HasParts "a".toList "a".toList [] [] :=
    ⟨by decide, ⟨⟨'a', by decide, by decide⟩, List.all_eq_true.mp (by decide), by decide⟩, hnone,
      .inl rfl⟩
  have hsine : HasParts "sin".toList "sin".toList [] [] :=
    ⟨by decide, ⟨⟨'s', by decide, by decide⟩, List.all_eq_true.mp (by decide), by decide⟩, hnone,
      .inl rfl⟩
  have hfree : ¬ IsTaken "a" := by
    rintro (hbuiltin | hreserved)
    · cases hbuiltin
    · exact absurd hreserved (by decide)
  have houter : Request.assignment? (trimLine "a = sin = 1") = some ("a", "sin = 1") := by decide
  have hinner : Request.assignment? (trimLine "sin = 1") = some ("sin", "1") := by decide
  have hrefused : (process (fun _ _ => none) {} "sin = 1").result =
      .error (.invalidName "sin") := by
    rw [process_of_assignment? hinner, targetName_of_isTaken hsine (.inl rfl)]
    rfl
  have hfails : (process (fun _ _ => none) {} "a = sin = 1").result =
      .error (.invalidName "sin") :=
    (process_eq_invalidName_iff houter ha hfree).mpr
      ⟨by decide +kernel, Option.isSome_of_eq_some hinner, hrefused⟩
  rcases (hall (fun _ _ => none) {} _ _ _ houter).mp ⟨_, hfails⟩ with
    hparts | ⟨name, gap, parameter, hparts, htaken⟩
  · exact hparts ⟨_, _, _, ha⟩
  · obtain ⟨rfl, -, -⟩ := hparts.unique ha
    exact hfree htaken

end Session
end Calculator
